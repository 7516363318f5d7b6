import XDevice.Storage.OpenDescriptors
/-!
# Files over several sessions

A backend is initialised, used and cleaned up, and the next one starts on the same
directory with an empty cache. What stands in the way of a call is the cache of its own
session only: where each session uses each file in one way, all sessions together are one
map of files.
-/
open Lib Lib.Posix

namespace XDevice

/-- The access a call opens its file with, if it opens it for the cache. -/
def StorageOp.access : StorageOp → Option Access
  | .readSync _ _ n => if n = 0 then none else some .rdonly
  | .writeSync _ _ data => if data.length = 0 then none else some .wronly
  | .fsync _ => some .wronly
  | _ => none

/-! ## What comes into the cache -/

/-- All descriptors in the cache were there, with the same access, or are of `opened`. -/
def CachesOnly (opened : Set (CString × Access)) (w w' : LocalWorld) : Prop :=
  ∀ path f', cachedOpen w' path = some f' →
    (∃ f, cachedOpen w path = some f ∧ f.access = f'.access) ∨ (path, f'.access) ∈ opened

section
variable {opened : Set (CString × Access)} {base : CString} {d : Place} {w w' w'' : LocalWorld} {env : CallEnv}

theorem CachesOnly.refl (opened : Set (CString × Access)) (w : LocalWorld) : CachesOnly opened w w :=
  fun _ f' hf => .inl ⟨f', hf, rfl⟩

theorem CachesOnly.trans (h : CachesOnly opened w w') (h' : CachesOnly opened w' w'') : CachesOnly opened w w'' := by
  intro path f'' hf''
  rcases h' path f'' hf'' with ⟨f', hf', he⟩ | hnew
  · rcases h path f' hf' with ⟨f, hf, he'⟩ | hnew
    · exact .inl ⟨f, hf, he'.trans he⟩
    · exact .inr (he ▸ hnew)
  · exact .inr hnew

/-- The cache is the same, and every descriptor that is open was open for the same access. -/
theorem CachesOnly.of_fds (hcache : w'.priv.fdCache = w.priv.fdCache)
    (hfds : ∀ fd f', w'.fs.fds fd = some f' → ∃ f, w.fs.fds fd = some f ∧ f.access = f'.access) :
    CachesOnly opened w w' := by
  intro path f' hf'
  obtain ⟨fd, hfd, hopen⟩ := Option.bind_eq_some_iff.1 hf'
  obtain ⟨f, hf, he⟩ := hfds fd f' hopen
  refine .inl ⟨f, Option.bind_eq_some_iff.2 ⟨fd, ?_, hf⟩, he⟩
  rwa [cachedFd, hcache] at hfd

theorem CachesOnly.withFs {fs : Fs} (hfds : fs.fds = w.fs.fds) : CachesOnly opened w (w.withFs fs) :=
  .of_fds rfl fun _ f' hf' => ⟨f', hfds ▸ hf', rfl⟩

theorem CachesOnly.setOffset {fd : Nat} {f : OpenFile} (hf : w.fs.fds fd = some f) (offset : Nat) :
    CachesOnly opened w (w.withFs (w.fs.setOffset fd f offset)) := by
  refine .of_fds rfl fun fd' f' hf' => ?_
  simp only [LocalWorld.withFs, Fs.setOffset] at hf'
  split at hf'
  · rename_i he
    cases hf'
    exact ⟨f, he ▸ hf, rfl⟩
  · exact ⟨f', hf', rfl⟩

theorem CachesOnly.withStats (h : CachesOnly opened w w') (st : StorageStats) : CachesOnly opened w (w'.withStats st) := h

theorem ftruncate_fds {fs fs' : Fs} {fd size : Nat} (h : fs.ftruncate fd size = .ok fs') : fs'.fds = fs.fds := by
  unfold Fs.ftruncate at h
  split at h
  · cases h
  · split at h <;> cases h
    rfl

theorem unlink_fds {fs fs' : Fs} {path : CString} (h : fs.unlink path = .ok fs') : fs'.fds = fs.fds := by
  unfold Fs.unlink at h
  split at h
  · cases h
  · split at h
    · cases h
    · split at h <;> cases h
      rfl

/-- A flat name in the base directory is no directory's. -/
theorem isDir_flat (h : LocalOk base d w) {p : CString} (hpath : FlatPath base p) {q : Place}
    (hq : w.fs.resolve (fullPath w p) = .ok q) : w.fs.isDir q = false := by
  rw [fullPath, h.path, buildFilePath_flat hpath, Fs.resolve_entry h.dir.resolves h.dir.dir hpath.name] at hq
  cases hq
  exact h.dir.flat p

/-- A descriptor is had from the cache, or put there with the access it is asked for. -/
theorem getFileDescriptor_caches {p : CString} {flags : OpenFlags} {r : Option Nat} (h : LocalOk base d w)
    (hpath : FlatPath base p) (hget : getFileDescriptor env w (fullPath w p) flags = some (w', r)) :
    CachesOnly {(fullPath w p, flags.access)} w w' ∧ ∀ fd, r = some fd → ∃ f, w'.fs.fds fd = some f := by
  cases hc : cachedFd w (fullPath w p) with
  | some fd =>
    obtain ⟨cache, hget', hsame⟩ := getFileDescriptor_cached env hc flags
    rw [hget] at hget'
    cases hget'
    refine ⟨fun path' f' hf' => .inl ⟨f', ?_, rfl⟩, fun fd' hfd' => ?_⟩
    · rw [cachedOpen, hsame] at hf'
      exact hf'
    · cases hfd'
      exact Option.isSome_iff_exists.1 (h.cache _ fd hc)
  | none =>
    cases hopened : w.fs.openFile (fullPath w p) flags with
    | error e =>
      rw [getFileDescriptor_failed hc hopened] at hget
      cases hget
      exact ⟨.refl _ _, nofun⟩
    | ok r1 =>
      obtain ⟨fs, fd⟩ := r1
      obtain ⟨rfl, -, -, hother⟩ := Fs.openFile_opens hopened
      have hnew : ∃ ino, fs.fds w.fs.nextFd = some ⟨ino, flags.access, 0⟩ := by
        obtain ⟨q, hq, hopens⟩ := Fs.openFile_ok hopened
        cases hopens with
        | found ino => exact ⟨ino, Fs.newFd_self w.fs ino flags.access⟩
        | made => exact ⟨w.fs.nextIno, Fs.newFd_self (w.fs.newFile q) w.fs.nextIno flags.access⟩
        | directory hdir =>
          rw [isDir_flat h hpath hq] at hdir
          cases hdir
      obtain ⟨ino, hfd⟩ := hnew
      -- the descriptors in the cache are below the new one
      have hold : ∀ path' fd', cachedFd w path' = some fd' → fs.fds fd' = w.fs.fds fd' := by
        intro path' fd' hc'
        obtain ⟨f, hf⟩ := Option.isSome_iff_exists.1 (h.cache path' fd' hc')
        exact hother fd' (Nat.ne_of_lt (h.fs.fd fd' f hf).1)
      have hkept : ∀ path' fd' f', cachedFd w path' = some fd' → fs.fds fd' = some f' → cachedOpen w path' = some f' := by
        intro path' fd' f' hc' hf'
        rw [hold path' fd' hc'] at hf'
        exact Option.bind_eq_some_iff.2 ⟨fd', hc', hf'⟩
      rw [getFileDescriptor_opens env hc hopened] at hget
      split at hget
      · split at hget
        · cases hget
        · cases hget
          refine ⟨fun path' f' hf' => ?_, fun fd' hfd' => by cases hfd'; exact ⟨_, hfd⟩⟩
          obtain ⟨fd', hc', hf''⟩ := Option.bind_eq_some_iff.1 hf'
          rcases cachedFd_append hc' with hc' | ⟨rfl, rfl⟩
          · exact .inl ⟨f', hkept path' fd' f' hc' hf'', rfl⟩
          · cases hfd.symm.trans hf''
            exact .inr rfl
      · cases hget
        refine ⟨fun path' f' hf' => ?_, fun fd' hfd' => by cases hfd'; exact ⟨_, hfd⟩⟩
        obtain ⟨fd', hc', hf''⟩ := Option.bind_eq_some_iff.1 hf'
        exact .inl ⟨f', hkept path' fd' f' hc' hf'', rfl⟩

section
variable {p : CString} {off n : Nat} {data : Bytes} {reply : StorageReply}

theorem localRead_caches (h : LocalOk base d w) (hpath : FlatPath base p) (hn : n ≠ 0)
    (hcall : localStorageReadSync env w p off n = some (w', reply)) : CachesOnly {(fullPath w p, .rdonly)} w w' := by
  have hrest := hcall
  unfold localStorageReadSync at hrest
  rw [if_neg hn] at hrest
  obtain ⟨⟨w1, r⟩, hget, hrest⟩ := Option.map_eq_some_iff.1 hrest
  obtain ⟨hcaches, hopen⟩ := getFileDescriptor_caches h hpath hget
  cases r with
  | none =>
    cases hrest
    exact hcaches
  | some fd =>
    obtain ⟨f, hf⟩ := hopen fd rfl
    obtain ⟨w2, reply2, hcall2, ⟨pos, stats, rfl⟩, -⟩ := localRead_through off hn hget hf
    obtain ⟨rfl, -⟩ := Prod.mk.inj (Option.some.inj (hcall2.symm.trans hcall))
    exact (hcaches.trans (.setOffset hf pos)).withStats stats

theorem localWrite_caches (h : LocalOk base d w) (hpath : FlatPath base p) (hd : data.length ≠ 0)
    (hcall : localStorageWriteSync env w p off data = some (w', reply)) : CachesOnly {(fullPath w p, .wronly)} w w' := by
  have hparents : createParents w.fs (fullPath w p) = some w.fs := by
    rw [fullPath, h.path, buildFilePath_flat hpath]
    exact createParents_flat h.dir hpath
  have hrest := hcall
  unfold localStorageWriteSync at hrest
  rw [if_neg hd] at hrest
  obtain ⟨fs1, hparents', hrest⟩ := Option.bind_eq_some_iff.1 hrest
  obtain rfl : w.fs = fs1 := Option.some.inj (hparents.symm.trans hparents')
  obtain ⟨⟨w1, r⟩, hget, hrest⟩ := Option.map_eq_some_iff.1 hrest
  have hsame : w.withFs w.fs = w := rfl
  rw [hsame] at hget
  obtain ⟨hcaches, hopen⟩ := getFileDescriptor_caches h hpath hget
  cases r with
  | none =>
    cases hrest
    exact hcaches
  | some fd =>
    obtain ⟨f, hf⟩ := hopen fd rfl
    obtain ⟨w2, reply2, hcall2, -, hfailed, heffect⟩ := localWrite_through off hd hparents (hsame ▸ hget) hf
    obtain ⟨rfl, rfl⟩ := Prod.mk.inj (Option.some.inj (hcall2.symm.trans hcall))
    by_cases hwrites : ∃ start, WritesAt f off data start
    · obtain ⟨start, hwrites⟩ := hwrites
      obtain ⟨pos, stats, rfl⟩ := heffect start hwrites
      have hwritten : CachesOnly {(fullPath w p, .wronly)} w1
          (w1.withFs (w1.fs.setInode f.ino (writeAt 0 (w1.fs.inodes f.ino) start data))) := .withFs rfl
      exact ((hcaches.trans hwritten).trans (.setOffset hf pos)).withStats stats
    · obtain ⟨pos, stats, rfl⟩ := hfailed hwrites
      exact (hcaches.trans (.setOffset hf pos)).withStats stats

theorem localFsync_caches (h : LocalOk base d w) (hpath : FlatPath base p) (hcall : localStorageFsync env w p = some (w', reply)) :
    CachesOnly {(fullPath w p, .wronly)} w w' := by
  obtain ⟨⟨w1, r⟩, hget, hrest⟩ := Option.map_eq_some_iff.1 hcall
  obtain ⟨hcaches, -⟩ := getFileDescriptor_caches h hpath hget
  cases r with
  | none =>
    cases hrest
    exact hcaches
  | some fd =>
    dsimp only at hrest
    split at hrest <;> cases hrest <;> exact hcaches

theorem localCreate_caches (hcall : localStorageCreateFile w p n = some (w', reply)) : CachesOnly opened w w' := by
  obtain ⟨fs1, hparents, hrest⟩ := Option.map_eq_some_iff.1 hcall
  obtain ⟨isDir, rfl⟩ := createParents_dirs hparents
  split at hrest
  · cases hrest
    exact .withFs rfl
  · rename_i fs2 fd hopened
    obtain ⟨-, -, -, hother⟩ := Fs.openFile_opens hopened
    -- the new descriptor is closed whatever comes of it
    have hclosed : ∀ fs3 : Fs, fs3.fds = fs2.fds → CachesOnly opened w (w.withFs (fs3.close fd)) := by
      intro fs3 hfds
      refine .of_fds rfl fun fd' f' hf' => ?_
      simp only [LocalWorld.withFs, Fs.close] at hf'
      split at hf'
      · cases hf'
      · rename_i hne
        rw [hfds, hother fd' hne] at hf'
        exact ⟨f', hf', rfl⟩
    split at hrest
    · split at hrest
      · rename_i fs3 htrunc
        cases hrest
        exact hclosed fs3 (ftruncate_fds htrunc)
      · dsimp only at hrest
        split at hrest
        · rename_i fs3 hunlink
          cases hrest
          exact (hclosed fs2 rfl).trans (.withFs (unlink_fds hunlink))
        · cases hrest
          exact hclosed fs2 rfl
    · cases hrest
      exact hclosed fs2 rfl

/-- Of a call only the descriptor it asks for comes into the cache. -/
theorem localExec_caches {op : StorageOp} (h : LocalOk base d w) (hpath : FlatPath base op.path)
    (hcall : localExec env w op = some (w', reply)) :
    CachesOnly {c | c.1 = fullPath w op.path ∧ op.access = some c.2} w w' := by
  have hsingle : ∀ access, op.access = some access → CachesOnly {(fullPath w op.path, access)} w w' →
      CachesOnly {c | c.1 = fullPath w op.path ∧ op.access = some c.2} w w' := by
    intro access hacc hcaches path f' hf'
    rcases hcaches path f' hf' with hold | hnew
    · exact .inl hold
    · cases hnew
      exact .inr ⟨rfl, hacc⟩
  cases op with
  | createFile p n => exact localCreate_caches hcall
  | writeSync p off data =>
    by_cases hd : data.length = 0
    · rw [show localExec env w (.writeSync p off data) = some (w, .ofCode .invalidParam) from if_pos hd] at hcall
      cases hcall
      exact .refl _ _
    · exact hsingle .wronly (if_neg hd) (localWrite_caches h hpath hd hcall)
  | readSync p off n =>
    by_cases hn : n = 0
    · rw [show localExec env w (.readSync p off n) = some (w, .ofCode .invalidParam) from if_pos hn] at hcall
      cases hcall
      exact .refl _ _
    · exact hsingle .rdonly (if_neg hn) (localRead_caches h hpath hn hcall)
  | deleteFile p =>
    have hcall : localStorageDeleteFile w p = (w', reply) := Option.some.inj hcall
    unfold localStorageDeleteFile at hcall
    split at hcall
    · rename_i fs hunlink
      cases hcall
      exact .withFs (unlink_fds hunlink)
    · cases hcall
      exact .refl _ _
  | getFileInfo p =>
    cases hcall
    exact .refl _ _
  | fsync p => exact hsingle .wronly rfl (localFsync_caches h hpath hcall)

end

end

/-! ## One session -/

/-- What the files are to a caller that no cached descriptor stands in the way of: reads and
syncs are of what is there. -/
def FileMap.diskExec (m : FileMap) : StorageOp → FileMap × StorageReply
  | .createFile p n => m.createFile p n
  | .writeSync p off data => m.writeSync p off data
  | .readSync p off n =>
    (m, if n = 0 then .ofCode .invalidParam
      else
        match m p with
        | none => .ofCode .io
        | some c => if off + n ≤ c.length then ⟨.ok, (c.drop off).take n, 0⟩ else .ofCode .notFound)
  | .deleteFile p => m.deleteFile p
  | .getFileInfo p => (m, m.getFileInfo p)
  | .fsync p => (m, .ofCode (if m p = none then .io else .ok))

def diskMachine : Machine FileMap (CallEnv × StorageOp) StorageReply where
  step m a := some (m.diskExec a.2)

/-- Calls on flat names that fit, no file of which is both read and written or synced, and no
file of which is deleted and read, written or synced. -/
structure Disciplined (base : CString) (calls : List (CallEnv × StorageOp)) : Prop where
  paths : ∀ a ∈ calls, FlatPath base a.2.path
  extents : ∀ a ∈ calls, a.2.extent < 2 ^ 63
  oneWay : ∀ a ∈ calls, ∀ b ∈ calls, a.2.path = b.2.path → ∀ x ∈ a.2.access, ∀ y ∈ b.2.access, x = y
  deleted : ∀ a ∈ calls, ∀ b ∈ calls, a.2.path = b.2.path → a.2 = .deleteFile a.2.path → b.2.access = none

/-- The descriptors in the cache are of files that are there, opened by calls of the session. -/
structure SessionOk (base : CString) (d : Place) (calls : List (CallEnv × StorageOp)) (w : LocalWorld) : Prop where
  ok : LocalOk base d w
  live : ∀ p, Fs.FlatName p → LiveAt d w p
  uses : ∀ p f, Fs.FlatName p → cachedOpen w (base ++ slash :: p) = some f →
    ∃ a ∈ calls, a.2.path = p ∧ a.2.access = some f.access

section
variable {base : CString} {d : Place} {w w' : LocalWorld} {calls : List (CallEnv × StorageOp)}
  {a : CallEnv × StorageOp} {p : CString}

theorem cachedFile_eq (w : LocalWorld) (p : CString) :
    cachedFile w p = (cachedOpen w (w.priv.basePath ++ slash :: p)).map fun f => (f.ino, f.access) :=
  (Option.map_bind ..).symm

/-- A descriptor in the cache has the access that the session's calls on its file ask for. -/
theorem SessionOk.access (h : SessionOk base d calls w) (hdisc : Disciplined base calls) (ha : a ∈ calls)
    {access : Access} (hacc : a.2.access = some access) : ∀ r ∈ cachedFile w a.2.path, r.2 = access := by
  intro r hr
  rw [cachedFile_eq, h.ok.path] at hr
  obtain ⟨f, hf, rfl⟩ := Option.map_eq_some_iff.1 hr
  obtain ⟨b, hb, hpath, hacc'⟩ := h.uses a.2.path f (hdisc.paths a ha).name hf
  exact hdisc.oneWay b hb a ha hpath f.access hacc' access hacc

theorem SessionOk.keeps (h : SessionOk base d calls w) (hdisc : Disciplined base calls) (ha : a ∈ calls)
    {reply : StorageReply} (hcall : localExec a.1 w a.2 = some (w', reply)) (hok : LocalOk base d w')
    (hlive : ∀ p, Fs.FlatName p → LiveAt d w' p) : SessionOk base d calls w' := by
  refine ⟨hok, hlive, fun p f hp hf => ?_⟩
  rcases localExec_caches h.ok (hdisc.paths a ha) hcall _ f hf with ⟨f0, hf0, he⟩ | ⟨hpath, hacc⟩
  · obtain ⟨b, hb, hbp, hacc⟩ := h.uses p f0 hp hf0
    exact ⟨b, hb, hbp, he ▸ hacc⟩
  · rw [fullPath, h.ok.path, buildFilePath_flat (hdisc.paths a ha)] at hpath
    have hname : p = a.2.path := (List.cons.inj (List.append_cancel_left hpath)).2
    exact ⟨a, ha, hname.symm, hacc⟩

/-- Deleting a file of which no descriptor is cached leaves those of the other files. -/
theorem localDelete_live (h : LocalOk base d w) (hp : FlatPath base p) (hnone : cachedOpen w (base ++ slash :: p) = none)
    (hlive : ∀ q, Fs.FlatName q → LiveAt d w q) {q : CString} (hq : Fs.FlatName q) :
    LiveAt d (localStorageDeleteFile w p).1 q := by
  have hres := Fs.resolve_entry h.dir.resolves h.dir.dir hp.name
  unfold localStorageDeleteFile
  rw [h.path, buildFilePath_flat hp]
  cases hunlink : w.fs.unlink (base ++ slash :: p) with
  | error e => exact hlive q hq
  | ok fs =>
    unfold Fs.unlink at hunlink
    rw [hres] at hunlink
    dsimp only at hunlink
    split at hunlink
    · cases hunlink
    · split at hunlink
      · cases hunlink
        intro ino access hc
        have hc' : cachedFile w q = some (ino, access) := hc
        by_cases hqp : q = p
        · rw [cachedFile_eq, h.path, hqp, hnone] at hc'
          cases hc'
        · exact (if_neg (by simpa using hqp)).trans (hlive q hq ino access hc')
      · cases hunlink

/-- In a session that keeps to the discipline, every call does what it does to the files. -/
theorem session_call (h : SessionOk base d calls w) (hdisc : Disciplined base calls) (ha : a ∈ calls) :
    ∃ w', localExec a.1 w a.2 = some (w', ((localMap d w).diskExec a.2).2) ∧ SessionOk base d calls w' ∧
      localMap d w' = ((localMap d w).diskExec a.2).1 := by
  have hpath := hdisc.paths a ha
  have hlive := h.live a.2.path hpath.name
  have hext := hdisc.extents a ha
  have hstep : ∀ {w' : LocalWorld} {reply : StorageReply} {m : FileMap}, localExec a.1 w a.2 = some (w', reply) →
      LocalStep base d w w' m → SessionOk base d calls w' ∧ localMap d w' = m := fun hcall hs =>
    ⟨h.keeps hdisc ha hcall hs.ok fun p hp => hs.live p hp (h.live p hp), hs.map⟩
  have hstay : SessionOk base d calls w ∧ localMap d w = localMap d w := ⟨h, rfl⟩
  obtain ⟨env, op⟩ := a
  cases op with
  | createFile p n =>
    obtain ⟨w', hcall, hs⟩ := localCreate_spec (n := n) h.ok hpath hext
    exact ⟨w', hcall, hstep hcall hs⟩
  | writeSync p off data =>
    by_cases h0 : data.length = 0
    · rw [FileMap.diskExec, FileMap.writeSync, if_pos h0]
      exact ⟨w, if_pos h0, hstay⟩
    · have hoff : off + data.length < 2 ^ 63 := hext
      obtain ⟨w', r, hcall, hspec⟩ := localWrite_spec env h.ok hpath hlive h0 hoff
      have hwrites : (StorageOp.writeSync p off data).access = some .wronly := if_neg h0
      have hacc := h.access hdisc ha hwrites
      rw [if_neg (not_not.2 (cached_access_iff.2 hacc))] at hspec
      obtain ⟨rfl, hs⟩ := hspec
      rw [FileMap.diskExec, FileMap.writeSync, if_neg h0]
      exact ⟨w', hcall, hstep hcall hs⟩
  | readSync p off n =>
    by_cases h0 : n = 0
    · refine ⟨w, ?_, hstay⟩
      rw [FileMap.diskExec, if_pos h0]
      exact if_pos h0
    · rw [FileMap.diskExec, if_neg h0]
      have hoff : off + n < 2 ^ 63 := hext
      have hop : (StorageOp.readSync p off n).access = some .rdonly := if_neg h0
      cases hm : localMap d w p with
      | none => exact ⟨w, localRead_missing env h.ok hpath hlive hm h0, hstay⟩
      | some c =>
        obtain ⟨w', hcall, hs⟩ := localRead_found env h.ok hpath hlive hm h0 hoff
        have hacc := h.access hdisc ha hop
        rw [if_neg (not_not.2 (cached_access_iff.2 hacc))] at hcall
        exact ⟨w', hcall, hstep hcall hs⟩
  | deleteFile p =>
    obtain ⟨w', hcall, hok, hmap⟩ := localDelete_spec h.ok hpath
    have hcall' : localExec env w (.deleteFile p) = some (w', ((localMap d w).deleteFile p).2) := congrArg some hcall
    have hnone : cachedOpen w (base ++ slash :: p) = none := by
      by_contra hsome
      obtain ⟨f, hf⟩ := Option.ne_none_iff_exists'.1 hsome
      obtain ⟨b, hb, hbp, hacc⟩ := h.uses p f hpath.name hf
      rw [hdisc.deleted _ ha b hb hbp.symm rfl] at hacc
      cases hacc
    refine ⟨w', hcall', h.keeps hdisc ha hcall' hok fun q hq => ?_, hmap⟩
    have hleft := localDelete_live h.ok hpath hnone h.live hq
    rwa [hcall] at hleft
  | getFileInfo p => exact ⟨w, congrArg (fun r => some (w, r)) (localInfo_spec h.ok hpath), hstay⟩
  | fsync p =>
    cases hm : localMap d w p with
    | none =>
      refine ⟨w, ?_, hstay⟩
      rw [FileMap.diskExec, if_pos hm]
      exact localFsync_missing env h.ok hpath hlive hm
    | some c =>
      obtain ⟨w', hcall, hs⟩ := localFsync_found env h.ok hpath hlive hm
      refine ⟨w', ?_, hstep hcall hs⟩
      rw [FileMap.diskExec, if_neg (by rw [hm]; exact nofun)]
      exact hcall

/-- A session that has begun well goes through, and does to the files what its calls do. -/
theorem session_run (h : SessionOk base d calls w) (hdisc : Disciplined base calls) :
    ∃ w' m replies, localMachine.run w calls = some (w', replies) ∧
      diskMachine.run (localMap d w) calls = some (m, replies) ∧ LocalOk base d w' ∧ localMap d w' = m := by
  have hsim : Machine.Sim localMachine diskMachine (fun w m => SessionOk base d calls w ∧ localMap d w = m)
      (fun _ a => a ∈ calls) := by
    rintro w m a ⟨hw, rfl⟩ ha
    obtain ⟨w', hcall, hw', hmap⟩ := session_call hw hdisc ha
    exact ⟨w', _, _, hcall, rfl, hw', hmap⟩
  obtain ⟨w', m, replies, hrun, hrun', hw', hmap⟩ :=
    hsim.run ⟨h, rfl⟩ (Machine.along_of_forall (A := fun a => a ∈ calls) (fun _ ha => ha) w)
  exact ⟨w', m, replies, hrun, hrun', hw'.ok, hmap⟩

end

/-! ## Sessions in turn -/

/-- `local_storage_init`, the calls, `local_storage_cleanup`. -/
def sessionMachine (config : Option CString) : Machine Fs (List (CallEnv × StorageOp)) (List StorageReply) where
  step fs calls :=
    match localStorageInit fs config with
    | some (fs, .ok priv) => (localMachine.run ⟨fs, priv⟩ calls).map fun r => (localStorageCleanup r.1, r.2)
    | _ => none

/-- The next session finds the files of `m`. -/
def Ready (config : Option CString) (base : CString) (d : Place) (m : FileMap) (fs : Fs) : Prop :=
  ∃ fs' priv, localStorageInit fs config = some (fs', .ok priv) ∧ LocalOk base d ⟨fs', priv⟩ ∧
    (∀ path, cachedFd ⟨fs', priv⟩ path = none) ∧ localMap d ⟨fs', priv⟩ = m

section
variable {config : Option CString} {base : CString} {d : Place} {fs fs' : Fs} {priv : LocalStoragePrivate}
  {calls : List (CallEnv × StorageOp)} {m : FileMap}

/-- Every initialisation makes the same base directory, and returns the same when that succeeds. -/
theorem localStorageInit_base (config : Option CString) : ∃ base, base.length < maxPathLen ∧
    ∀ fs, localStorageInit fs config = (createDirectories fs base).map fun r =>
      if r.2 ≠ .ok then (r.1, .error .io) else (r.1, .ok ⟨base, 100, [], .zero⟩) := by
  cases config with
  | none => exact ⟨cstr "/tmp/xdevice", by decide, fun _ => rfl⟩
  | some config =>
    have hlen : (strncpy config (maxPathLen - 1)).length < maxPathLen :=
      Nat.lt_of_le_of_lt (List.length_take_le _ config) (by decide)
    exact ⟨strncpy config (maxPathLen - 1), hlen, fun _ => rfl⟩

/-- Where the base directory is there, a new backend finds it and makes nothing. -/
theorem localStorageInit_again (hinit : localStorageInit fs config = some (fs', .ok priv)) {fs1 : Fs}
    (hdir : BaseDir priv.basePath d fs1) :
    localStorageInit fs1 config = some (fs1, .ok ⟨priv.basePath, 100, [], .zero⟩) := by
  obtain ⟨base, hlen, hbase⟩ := localStorageInit_base config
  rw [hbase] at hinit ⊢
  obtain ⟨r, -, he⟩ := Option.map_eq_some_iff.1 hinit
  split at he
  · cases he
  · cases he
    have hthere := createDirectories_there hdir hlen
    rw [hthere]
    rfl

theorem cleanup_changes (w : LocalWorld) : ∃ fds, localStorageCleanup w = { w.fs with fds := fds } := by
  have hall : ∀ (cache : List FdCacheEntry) (fs : Fs),
      ∃ fds, cache.foldl (fun fs e => fs.close e.fd) fs = { fs with fds := fds } := by
    intro cache
    induction cache with
    | nil => exact fun fs => ⟨fs.fds, rfl⟩
    | cons e cache ih =>
      intro fs
      obtain ⟨fds, he⟩ := ih (fs.close e.fd)
      exact ⟨fds, he⟩
  exact hall _ _

/-- A session on a base directory that is ready begins well. -/
theorem sessionOk_start (hok : LocalOk base d ⟨fs', priv⟩) (hempty : ∀ path, cachedFd ⟨fs', priv⟩ path = none) :
    SessionOk base d calls ⟨fs', priv⟩ := by
  have hnone : ∀ path, cachedOpen ⟨fs', priv⟩ path = none := fun path => by rw [cachedOpen, hempty, Option.bind_none]
  refine ⟨hok, fun p _ ino access hc => ?_, fun p f _ hf => ?_⟩
  · rw [cachedFile_eq, hnone] at hc
    cases hc
  · rw [hnone] at hf
    cases hf

/-- What a session leaves is found by the next. -/
theorem ready_after (hinit : localStorageInit fs config = some (fs', .ok priv)) (hbase : priv.basePath = base)
    {w : LocalWorld} (hw : LocalOk base d w) : Ready config base d (localMap d w) (localStorageCleanup w) := by
  obtain ⟨fds, hclean⟩ := cleanup_changes w
  have hdir : BaseDir priv.basePath d (localStorageCleanup w) := by
    rw [hclean, hbase]
    exact hw.dir.congr rfl rfl
  have hfs : (localStorageCleanup w).Ok := by
    have hclosed : ∀ (cache : List FdCacheEntry) (fs : Fs), fs.Ok → (cache.foldl (fun fs e => fs.close e.fd) fs).Ok := by
      intro cache
      induction cache with
      | nil => exact fun _ h => h
      | cons e cache ih => exact fun fs h => ih _ (h.close e.fd)
    exact hclosed _ _ hw.fs
  refine ⟨_, _, localStorageInit_again hinit hdir, ⟨hbase, hbase ▸ hdir, hfs, fun _ _ hc => by cases hc⟩, fun _ => rfl, ?_⟩
  rw [hclean]
  rfl

/-- A session on a base directory that is ready leaves it ready. -/
theorem session_ready (h : Ready config base d m fs) (hdisc : Disciplined base calls) :
    ∃ fs' m' replies, (sessionMachine config).step fs calls = some (fs', replies) ∧
      diskMachine.run m calls = some (m', replies) ∧ Ready config base d m' fs' := by
  obtain ⟨fs1, priv, hinit, hok, hempty, rfl⟩ := h
  obtain ⟨w, m', replies, hrun, hrun', hw, rfl⟩ := session_run (sessionOk_start hok hempty) hdisc
  refine ⟨localStorageCleanup w, _, replies, ?_, hrun', ready_after hinit hok.path hw⟩
  simp only [sessionMachine, hinit, hrun, Option.map_some]

/-- Sessions that each use a file in one way answer as one run of the map of files does, whatever
was read or written before in other sessions: a restart loses and changes nothing. -/
theorem sessions_keep_files (hfs : fs.Ok) (hinit : localStorageInit fs config = some (fs', .ok priv))
    (hb : BaseAt d ⟨fs', priv⟩) {sessions : List (List (CallEnv × StorageOp))}
    (hdisc : ∀ calls ∈ sessions, Disciplined priv.basePath calls) :
    ∃ fs'' m replies, (sessionMachine config).run fs sessions = some (fs'', replies) ∧
      diskMachine.run (localMap d ⟨fs', priv⟩) sessions.flatten = some (m, replies.flatten) ∧
      Ready config priv.basePath d m fs'' := by
  obtain ⟨hok, hempty⟩ := localStorageInit_spec hfs hinit hb
  have hready : Ready config priv.basePath d (localMap d ⟨fs', priv⟩) fs := ⟨fs', priv, hinit, hok, hempty, rfl⟩
  clear hinit hfs hb hok hempty
  generalize localMap d ⟨fs', priv⟩ = m at hready ⊢
  induction sessions generalizing fs m with
  | nil => exact ⟨fs, m, [], rfl, rfl, hready⟩
  | cons calls sessions ih =>
    obtain ⟨hfirst, hrest⟩ := List.forall_mem_cons.1 hdisc
    obtain ⟨fs1, m1, replies1, hs, hr, hready1⟩ := session_ready hready hfirst
    obtain ⟨fs2, m2, replies2, hs2, hr2, hready2⟩ := ih hrest _ hready1
    exact ⟨fs2, m2, replies1 :: replies2, Machine.run_cons_eq_some.2 ⟨fs1, replies1, replies2, hs, hs2, rfl⟩,
      Machine.run_append hr hr2, hready2⟩

end

/-- A file written in one session, grown in a second and read in a third. -/
def threeSessions : List (List (CallEnv × StorageOp)) :=
  [calmly [.writeSync (cstr "a") 0 [1, 2], .fsync (cstr "a")], calmly [.writeSync (cstr "a") 3 [4]],
   calmly [.readSync (cstr "a") 0 4, .deleteFile (cstr "b")]]

theorem threeSessions_keep : ∃ fs replies, (sessionMachine none).run emptyDisk threeSessions = some (fs, replies) ∧
    replies.flatten = [.ofCode .ok, .ofCode .ok, .ofCode .ok, ⟨.ok, [1, 2, 0, 4], 0⟩, .ofCode .notFound] := by
  have hdisc : ∀ calls ∈ threeSessions, Disciplined freshLocal.priv.basePath calls := by
    intro calls hcalls
    have hall : (∀ a ∈ calls, FlatPath freshLocal.priv.basePath a.2.path) ∧ (∀ a ∈ calls, a.2.extent < 2 ^ 63) ∧
        (∀ a ∈ calls, ∀ b ∈ calls, a.2.path = b.2.path → ∀ x ∈ a.2.access, ∀ y ∈ b.2.access, x = y) ∧
        ∀ a ∈ calls, ∀ b ∈ calls, a.2.path = b.2.path → a.2 = .deleteFile a.2.path → b.2.access = none := by
      revert calls
      decide
    exact ⟨hall.1, hall.2.1, hall.2.2.1, hall.2.2.2⟩
  obtain ⟨fs, m, replies, hrun, hfiles, -⟩ := sessions_keep_files emptyDisk_ok freshLocal_init freshLocal_base hdisc
  refine ⟨fs, replies, hrun, ?_⟩
  have hempty : localMap [cstr "tmp", cstr "xdevice"] ⟨freshLocal.fs, freshLocal.priv⟩ = FileMap.empty := by
    funext p
    exact ite_self _
  rw [hempty] at hfiles
  have hout := congrArg (Option.map Prod.snd) hfiles
  exact (Option.some.inj hout).symm

end XDevice
