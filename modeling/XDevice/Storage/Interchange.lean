import XDevice.Storage.LocalRefinement
import XDevice.Storage.MockRefinement
/-!
# Exchanging the Mock and the Local backend

Both backends are to serve the same interface alike. They do, but for calls that
meet the descriptor cache of the one (a descriptor with the other access, or of a
file that was deleted), the table of files of the other (when it is full), and
reads that are not all in the file, which each answers in its own way.
-/
open Lib Lib.Posix

namespace XDevice

/-- A call that is small enough for both: a short flat name, a range within the
limit of the Mock backend, memory to spare. -/
structure SmallCall (base : CString) (a : CallEnv × StorageOp) : Prop where
  path : FlatPath base a.2.path
  extent : a.2.extent ≤ mockStorageInit.maxFileSize
  alloc : a.1.AllocOk
  keeps : a.2 ≠ .fsync a.2.path

/-- A read or a write finds no cached descriptor of a file that is no longer there
under its name. -/
def NotStale (d : Place) (w : LocalWorld) (a : CallEnv × StorageOp) : Prop :=
  match a.2 with
  | .writeSync p _ data => data.length ≠ 0 → LiveAt d w p
  | .readSync p _ n => n ≠ 0 → LiveAt d w p
  | _ => True

/-- There is room in the table of the Mock backend if the call adds a file, no cached
descriptor has the other access, and a read is of a range of an existing file, all
inside or all past its end. -/
def Agreeing (d : Place) (w : LocalWorld) (a : CallEnv × StorageOp) : Prop :=
  match a.2 with
  | .createFile p _ => localMap d w p = none → (localMap d w).fileCount < mockStorageInit.maxFiles
  | .writeSync p _ data => data.length ≠ 0 →
      (localMap d w p = none → (localMap d w).fileCount < mockStorageInit.maxFiles) ∧
        ∀ r ∈ cachedFile w p, r.2 = .wronly
  | .readSync p off n => n ≠ 0 →
      ∃ c ∈ localMap d w p, (off + n ≤ c.length ∨ c.length ≤ off) ∧ ∀ r ∈ cachedFile w p, r.2 = .rdonly
  | _ => True

/-- The Mock backend has the files of the Local one. -/
def SameFiles (base : CString) (d : Place) (w : LocalWorld) (priv : MockStoragePrivate) : Prop :=
  LocalOk base d w ∧ MockRefines (localMap d w) priv

/-- On one call both backends answer, alike just when it is `Agreeing`. -/
def AgreeOn (base : CString) (d : Place) (w : LocalWorld) (priv : MockStoragePrivate) (a : CallEnv × StorageOp) :
    Prop :=
  ∃ w' r priv' r', localExec a.1 w a.2 = some (w', r) ∧ mockExec a.1 priv a.2 = some (priv', r') ∧
    (r = r' ↔ Agreeing d w a) ∧ (Agreeing d w a → SameFiles base d w' priv')

section
variable {base : CString} {d : Place} {w w' : LocalWorld} {priv priv' : MockStoragePrivate} {a : CallEnv × StorageOp}

theorem AgreeOn.same {r : StorageReply} {m : FileMap} (hl : localExec a.1 w a.2 = some (w', r))
    (hm : mockExec a.1 priv a.2 = some (priv', r)) (ha : Agreeing d w a) (hok : LocalOk base d w')
    (hmap : localMap d w' = m) (href : MockRefines m priv') : AgreeOn base d w priv a :=
  ⟨w', r, priv', r, hl, hm, iff_of_true rfl ha, fun _ => ⟨hok, hmap ▸ href⟩⟩

theorem AgreeOn.differ {r r' : StorageReply} (hl : localExec a.1 w a.2 = some (w', r))
    (hm : mockExec a.1 priv a.2 = some (priv', r')) (hne : r ≠ r') (ha : ¬ Agreeing d w a) :
    AgreeOn base d w priv a :=
  ⟨w', r, priv', r', hl, hm, iff_of_false hne ha, fun h => absurd h ha⟩

section
variable {env : CallEnv} {p : CString} {off n : Nat} {data : Bytes}

theorem FlatPath.short (h : FlatPath base p) : p.length < maxPathLen := by
  have := h.fits
  omega

/-- A file more than there may be. -/
theorem mock_create_full {m : FileMap} (h : MockRefines m priv) (hp : m p = none)
    (hfull : mockStorageInit.maxFiles ≤ m.fileCount) :
    mockStorageCreateFile env priv p n = some (priv, .ofCode .outOfMemory) := by
  obtain ⟨hok, hh, rfl⟩ := h
  have hcreate : createNewFile env priv p n = some none := if_pos (by rw [hh.maxFiles, ← hok.fileCount]; exact hfull)
  simp [mockStorageCreateFile, mockMap_eq_none.1 hp, hcreate]

theorem agree_create (h : SameFiles base d w priv) (ha : SmallCall base (env, .createFile p n)) :
    AgreeOn base d w priv (env, .createFile p n) := by
  obtain ⟨hok, href⟩ := h
  have hpath : FlatPath base p := ha.path
  have hn : n ≤ 2 ^ 30 := ha.extent
  obtain ⟨w', hcall, hstep⟩ := localCreate_spec hok hpath (show n < 2 ^ 63 by omega)
  by_cases hroom : localMap d w p = none → (localMap d w).fileCount < mockStorageInit.maxFiles
  · obtain ⟨priv', hmock, href'⟩ := mock_create href ⟨ha.alloc, hpath.short, ha.extent, fun _ => hroom⟩
    exact .same hcall hmock hroom hstep.ok hstep.map href'
  · obtain ⟨hnone, hfull⟩ := Classical.not_imp.1 hroom
    refine .differ hcall (mock_create_full href hnone (Nat.not_lt.1 hfull)) ?_ hroom
    rw [FileMap.createFile, hnone]
    intro h
    cases h

theorem agree_write (h : SameFiles base d w priv) (ha : SmallCall base (env, .writeSync p off data))
    (hlive : data.length ≠ 0 → LiveAt d w p) : AgreeOn base d w priv (env, .writeSync p off data) := by
  obtain ⟨hok, href⟩ := h
  have hpath : FlatPath base p := ha.path
  by_cases h0 : data.length = 0
  · exact .same (if_pos h0) (if_pos h0) (fun hne => absurd h0 hne) hok rfl href
  have hext : off + data.length ≤ 2 ^ 30 := ha.extent
  have hwrite : ((localMap d w).writeSync p off data).2 = .ofCode .ok := by rw [FileMap.writeSync, if_neg h0]
  obtain ⟨w', r, hcall, hspec⟩ := localWrite_spec env hok hpath (hlive h0) h0 (show off + data.length < 2 ^ 63 by omega)
  split at hspec
  · -- a descriptor for something else, which only a file that is there has
    rename_i hr
    obtain ⟨rfl, -⟩ := hspec
    have hthere : localMap d w p ≠ none := by
      intro hnone
      rw [cachedFile_missing hpath.name (hlive h0) hnone] at hr
      exact hr rfl
    obtain ⟨priv', hmock, -⟩ := mock_write href ⟨ha.alloc, hpath.short, ha.extent, fun _ hnone => absurd hnone hthere⟩
    refine .differ hcall hmock ?_ ?_
    · rw [hwrite]
      intro h
      cases h
    · intro hag
      exact hr (cached_access_iff.2 (hag h0).2)
  · rename_i hr
    obtain ⟨rfl, hstep⟩ := hspec
    have hacc : ∀ r ∈ cachedFile w p, r.2 = .wronly := cached_access_iff.1 (not_not.1 hr)
    by_cases hroom : localMap d w p = none → (localMap d w).fileCount < mockStorageInit.maxFiles
    · obtain ⟨priv', hmock, href'⟩ := mock_write href ⟨ha.alloc, hpath.short, ha.extent, fun _ => hroom⟩
      rw [hwrite] at hmock
      rw [FileMap.writeSync, if_neg h0] at href'
      exact .same hcall hmock (fun _ => ⟨hroom, hacc⟩) hstep.ok hstep.map href'
    · obtain ⟨hnone, hfull⟩ := Classical.not_imp.1 hroom
      refine .differ hcall (mock_write_full href h0 hnone (Nat.not_lt.1 hfull)) ?_ ?_
      · intro h
        cases h
      · intro hag
        exact hroom (hag h0).1

theorem agree_read (h : SameFiles base d w priv) (ha : SmallCall base (env, .readSync p off n))
    (hlive : n ≠ 0 → LiveAt d w p) : AgreeOn base d w priv (env, .readSync p off n) := by
  obtain ⟨hok, href⟩ := h
  have hpath : FlatPath base p := ha.path
  by_cases h0 : n = 0
  · exact .same (if_pos h0) (if_pos h0) (fun hne => absurd h0 hne) hok rfl href
  have hext : off + n ≤ 2 ^ 30 := ha.extent
  obtain ⟨priv', hmock, href'⟩ : ∃ priv', mockStorageReadSync env priv p off n =
      some (priv', (localMap d w).readSync p off n) ∧ MockRefines (localMap d w) priv' :=
    mock_read href (show off + n < 2 ^ 64 by omega)
  rw [FileMap.readSync, if_neg h0] at hmock
  cases hm : localMap d w p with
  | none =>
    rw [hm] at hmock
    refine .differ (localRead_missing env hok hpath (hlive h0) hm h0) hmock ?_ ?_
    · intro h
      cases h
    · intro hag
      obtain ⟨c, hc, -⟩ := hag h0
      rw [hm] at hc
      cases hc
  | some c =>
    rw [hm] at hmock
    dsimp only at hmock
    obtain ⟨w', hcall, hstep⟩ := localRead_found env hok hpath (hlive h0) hm h0 (show off + n < 2 ^ 63 by omega)
    split at hcall
    · -- a descriptor for something else
      rename_i hw
      refine .differ hcall hmock ?_ ?_
      · intro h
        split at h <;> cases h
      · intro hag
        obtain ⟨-, -, -, hacc⟩ := hag h0
        exact hw (cached_access_iff.2 hacc)
    · rename_i hw
      have hacc : ∀ r ∈ cachedFile w p, r.2 = .rdonly := cached_access_iff.1 (not_not.1 hw)
      by_cases hrange : off + n ≤ c.length ∨ c.length ≤ off
      · have hag : Agreeing d w (env, .readSync p off n) := fun _ => ⟨c, hm, hrange, hacc⟩
        refine .same hcall (hmock.trans ?_) hag hstep.ok hstep.map href'
        rcases hrange with hin | hpast
        · rw [if_pos hin, if_pos (by omega), readAt_inside 0 hin]
        · rw [if_neg (by omega), if_neg (by omega)]
      · refine .differ hcall hmock ?_ ?_
        · rw [if_neg (by omega), if_pos (by omega)]
          intro h
          cases h
        · intro hag
          obtain ⟨c', hc', hr, -⟩ := hag h0
          obtain rfl : c = c' := Option.some.inj (hm.symm.trans hc')
          exact hrange hr

theorem agree_delete (h : SameFiles base d w priv) (ha : SmallCall base (env, .deleteFile p)) :
    AgreeOn base d w priv (env, .deleteFile p) := by
  obtain ⟨hok, href⟩ := h
  obtain ⟨w', hcall, hok', hmap⟩ := localDelete_spec hok ha.path
  obtain ⟨priv', hmock, href'⟩ := mock_delete href p
  exact .same (congrArg some hcall) hmock trivial hok' hmap href'

theorem agree_info (h : SameFiles base d w priv) (ha : SmallCall base (env, .getFileInfo p)) :
    AgreeOn base d w priv (env, .getFileInfo p) := by
  obtain ⟨hok, href⟩ := h
  have hcall : localExec env w (.getFileInfo p) = some (w, (localMap d w).getFileInfo p) :=
    congrArg (fun r => some (w, r)) (localInfo_spec hok ha.path)
  exact .same hcall (mock_info href p) trivial hok rfl href

end

theorem agree_step (h : SameFiles base d w priv) (ha : SmallCall base a) (hstale : NotStale d w a) :
    AgreeOn base d w priv a := by
  obtain ⟨env, op⟩ := a
  cases op with
  | createFile p n => exact agree_create h ha
  | writeSync p off data => exact agree_write h ha hstale
  | readSync p off n => exact agree_read h ha hstale
  | deleteFile p => exact agree_delete h ha
  | getFileInfo p => exact agree_info h ha
  | fsync p => exact absurd rfl ha.keeps

end

/-- Over any run of two new backends that meets no stale descriptor, all replies are
the same just when all calls are `Agreeing`. -/
theorem backends_agree_iff {fs fs' : Fs} {config : Option CString} {priv : LocalStoragePrivate} {d : Place}
    {calls : List (CallEnv × StorageOp)} (hfs : fs.Ok) (hinit : localStorageInit fs config = some (fs', .ok priv))
    (hb : BaseAt d ⟨fs', priv⟩) (hempty : ∀ p, fs'.files (d ++ [p]) = none)
    (hcalls : ∀ a ∈ calls, SmallCall priv.basePath a) (hstale : localMachine.Along (NotStale d) ⟨fs', priv⟩ calls) :
    (∃ replies, (localMachine.run ⟨fs', priv⟩ calls).map Prod.snd = some replies ∧
      (mockMachine.run mockStorageInit calls).map Prod.snd = some replies) ↔
      localMachine.Along (Agreeing d) ⟨fs', priv⟩ calls := by
  obtain ⟨hok, -⟩ := localStorageInit_spec hfs hinit hb
  have hmap : localMap d ⟨fs', priv⟩ = FileMap.empty := by
    funext p
    simp [localMap, Fs.contentAt, hempty, FileMap.empty]
  have hstart : SameFiles priv.basePath d ⟨fs', priv⟩ mockStorageInit := ⟨hok, hmap ▸ mockRefines_init⟩
  apply Machine.same_outputs_iff (R := SameFiles priv.basePath d) _ hstart hcalls hstale
  intro w mock a h ha hns
  obtain ⟨w', r, mock', r', hl, hm, hiff, hnext⟩ := agree_step h ha hns
  exact ⟨w', r, mock', r', hl, hm, hiff, hnext⟩

theorem small_calmly {base : CString} {ops : List StorageOp} (h : ∀ op ∈ ops, FlatPath base op.path ∧
    op.extent ≤ mockStorageInit.maxFileSize ∧ op ≠ .fsync op.path) : ∀ a ∈ calmly ops, SmallCall base a := by
  intro a ha
  obtain ⟨op, hop, rfl⟩ := List.mem_map.1 ha
  obtain ⟨hpath, hext, hkeeps⟩ := h op hop
  exact ⟨hpath, hext, ⟨rfl, fun _ => rfl⟩, hkeeps⟩

/-- A new file of zeros, read in its middle and then deleted. -/
def createReadDelete : List (CallEnv × StorageOp) :=
  calmly [.createFile (cstr "a") 4, .readSync (cstr "a") 1 2, .deleteFile (cstr "a"), .getFileInfo (cstr "a")]

theorem createReadDelete_agrees : ∃ replies,
    (localMachine.run freshLocal createReadDelete).map Prod.snd = some replies ∧
    (mockMachine.run mockStorageInit createReadDelete).map Prod.snd = some replies := by
  -- nothing is in the cache after the first call, and the file is there
  have hnone : ∀ w r, localMachine.step freshLocal (.calm, .createFile (cstr "a") 4) = some (w, r) →
      cachedFile w (cstr "a") = none ∧ localMap [cstr "tmp", cstr "xdevice"] w (cstr "a") = some [0, 0, 0, 0] := by
    intro w r hs
    cases hs
    exact ⟨rfl, rfl⟩
  have hempty : localMap [cstr "tmp", cstr "xdevice"] freshLocal = FileMap.empty := by
    funext p
    exact ite_self _
  apply (backends_agree_iff emptyDisk_ok freshLocal_init freshLocal_base (fun _ => rfl) (small_calmly (by decide)) _).2
  · refine ⟨fun _ => ?_, fun w r hs => ⟨fun _ => ?_, fun _ _ _ => ⟨trivial, fun _ _ _ => ⟨trivial, fun _ _ _ => trivial⟩⟩⟩⟩
    · simp [hempty, FileMap.fileCount, FileMap.empty, mockStorageInit]
    · obtain ⟨hcache, hfile⟩ := hnone w r hs
      refine ⟨_, hfile, .inl (by decide), fun r hr => ?_⟩
      rw [hcache] at hr
      cases hr
  · refine ⟨trivial, fun w r hs => ⟨fun _ ino access hc => ?_, fun _ _ _ => ⟨trivial, fun _ _ _ => ⟨trivial, fun _ _ _ => trivial⟩⟩⟩⟩
    rw [(hnone w r hs).1] at hc
    cases hc

/-- A file written and read back, as the shared test does. -/
def createWriteRead : List (CallEnv × StorageOp) :=
  calmly [.createFile (cstr "a") 4, .writeSync (cstr "a") 0 [1, 2], .readSync (cstr "a") 0 2]

/-- The Mock backend gives the bytes, the Local one fails. -/
theorem written_backends_differ :
    emptyDisk.Ok ∧ localStorageInit emptyDisk none = some (freshLocal.fs, .ok freshLocal.priv) ∧
    BaseAt [cstr "tmp", cstr "xdevice"] freshLocal ∧ (∀ a ∈ createWriteRead, SmallCall freshLocal.priv.basePath a) ∧
    (localMachine.run freshLocal createWriteRead).map Prod.snd = some [.ofCode .ok, .ofCode .ok, .ofCode .io] ∧
    (mockMachine.run mockStorageInit createWriteRead).map Prod.snd = some [.ofCode .ok, .ofCode .ok, ⟨.ok, [1, 2], 0⟩] :=
  ⟨emptyDisk_ok, freshLocal_init, freshLocal_base, small_calmly (by decide), by decide, by decide⟩

end XDevice
