import XDevice.Storage.Local
import XDevice.Lib.Names
/-!
# The Local backend's files

A flat name is a file right below the base directory, and every call works on it
through a descriptor: the one cached for its path, whatever it was opened for,
or a new one. What a call does follows from the access mode of that descriptor
and from whether it still leads to the file of that name.
-/
open Lib Lib.Posix

namespace XDevice

/-! ## The base directory -/

/-- `base` leads to the directory `d`, which has no directories in it. -/
structure BaseDir (base : CString) (d : Place) (fs : Fs) : Prop where
  nonempty : base ≠ []
  notRoot : base ≠ [slash]
  resolves : fs.resolve base = .ok d
  dir : fs.isDir d = true
  flat : ∀ name, fs.isDir (d ++ [name]) = false

theorem BaseDir.congr {base : CString} {d : Place} {fs fs' : Fs} (h : BaseDir base d fs) (hcwd : fs'.cwd = fs.cwd)
    (hdir : fs'.isDir = fs.isDir) : BaseDir base d fs' where
  nonempty := h.nonempty
  notRoot := h.notRoot
  resolves := Fs.resolve_mono hcwd (fun q hq => by rw [hdir]; exact hq) h.resolves
  dir := hdir ▸ h.dir
  flat name := hdir ▸ h.flat name

theorem makeDirectories_there {fs : Fs} {paths : List CString}
    (h : ∀ path ∈ paths, ∃ q, fs.resolve path = .ok q ∧ fs.isDir q = true) : makeDirectories fs paths = (fs, .ok) := by
  induction paths with
  | nil => rfl
  | cons path paths ih =>
    obtain ⟨q, hq, hdir⟩ := h path List.mem_cons_self
    have hmk : fs.mkdir path = .error .exist := by simp [Fs.mkdir, Fs.resolve_entryPath hq, hdir]
    simp only [makeDirectories, hmk]
    exact ih fun p hp => h p (List.mem_cons_of_mem _ hp)

/-- All the directories above a file of the base directory are there. -/
theorem createDirectories_there {base : CString} {d : Place} {fs : Fs} (h : BaseDir base d fs)
    (hlen : base.length < maxPathLen) : createDirectories fs base = some (fs, .ok) := by
  have hcopy : strncpy base (maxPathLen - 1) = base := strncpy_eq (by omega)
  -- a slash at the end makes no difference
  obtain ⟨temp, htemp, hne, hthere⟩ : ∃ temp,
      (if base.getLast? = some slash then base.dropLast else base) = temp ∧ temp ≠ [] ∧
        ∃ q, fs.resolve temp = .ok q ∧ fs.isDir q = true := by
    split
    · rename_i hlast
      have hbase : base = base.dropLast ++ slash :: [] := (List.dropLast_append_getLast? slash hlast).symm
      have hne : base.dropLast ≠ [] := fun he => h.notRoot (by rw [hbase, he, List.nil_append])
      exact ⟨_, rfl, hne, Fs.resolve_through hne (hbase ▸ h.resolves)⟩
    · exact ⟨base, rfl, h.nonempty, d, h.resolves, h.dir⟩
  simp only [createDirectories, hcopy, if_neg h.nonempty, htemp]
  refine congrArg some (makeDirectories_there fun path hpath => ?_)
  rcases List.mem_append.1 hpath with hpre | hlast
  · obtain ⟨i, hi, rfl⟩ := List.mem_map.1 hpre
    obtain ⟨hrange, hslash⟩ := List.mem_filter.1 hi
    simp only [Bool.decide_and, Bool.and_eq_true, decide_eq_true_eq] at hslash
    obtain ⟨hlt, hget⟩ := List.getElem?_eq_some_iff.1 hslash.2
    have hsplit : temp = temp.take i ++ slash :: temp.drop (i + 1) := by
      rw [← hget, ← List.drop_eq_getElem_cons hlt, List.take_append_drop]
    obtain ⟨q, hq, -⟩ := hthere
    refine Fs.resolve_through (fun he => ?_) (hsplit ▸ hq)
    have : (temp.take i).length = 0 := by rw [he]; rfl
    rw [List.length_take] at this
    omega
  · rw [List.mem_singleton.1 hlast]
    exact hthere

/-! ## Flat paths -/

/-- A name of a file in the base directory whose full path fits its buffers. -/
structure FlatPath (base p : CString) : Prop where
  name : Fs.FlatName p
  fits : base.length + 1 + p.length < maxPathLen - 1

instance (base p : CString) : Decidable (FlatPath base p) :=
  decidable_of_iff (Fs.FlatName p ∧ base.length + 1 + p.length < maxPathLen - 1)
    ⟨fun ⟨h1, h2⟩ => ⟨h1, h2⟩, fun ⟨h1, h2⟩ => ⟨h1, h2⟩⟩

theorem buildFilePath_flat {base p : CString} (h : FlatPath base p) :
    buildFilePath base p maxPathLen = base ++ slash :: p := by
  have hhead : p.head? ≠ some slash := fun he => h.name.flat (List.mem_of_head? he)
  have hfits := h.fits
  rw [buildFilePath, if_neg hhead, snprintf_eq]
  simp only [List.length_append, List.length_cons]
  omega

theorem beforeLastSlash_flat {base p : CString} (h : slash ∉ p) : beforeLastSlash (base ++ slash :: p) = some base := by
  have hdrop : (p.reverse ++ slash :: base.reverse).dropWhile (· ≠ slash) = slash :: base.reverse := by
    have hall : ∀ c ∈ p.reverse, decide (c ≠ slash) = true := by
      intro c hc
      have hc' := List.mem_reverse.1 hc
      simpa using fun he : c = slash => h (he ▸ hc')
    rw [List.dropWhile_append_of_pos hall]
    simp
  rw [beforeLastSlash, if_pos (by simp)]
  simp only [List.reverse_append, List.reverse_cons, List.append_assoc, List.singleton_append, hdrop, List.drop_one,
    List.tail_cons, List.reverse_reverse]

theorem createParents_flat {base p : CString} {d : Place} {fs : Fs} (hbase : BaseDir base d fs)
    (h : FlatPath base p) : createParents fs (base ++ slash :: p) = some fs := by
  have hfits := h.fits
  have hlen : (base ++ slash :: p).length = base.length + 1 + p.length := by simp; omega
  rw [createParents, if_neg (by omega), beforeLastSlash_flat h.name.flat]
  simp only [createDirectories_there hbase (by omega), Option.map_some]

/-! ## State -/

/-- The descriptor cached for a path. -/
def cachedFd (w : LocalWorld) (path : CString) : Option Nat :=
  (lookup FdCacheEntry.path w.priv.fdCache path).map FdCacheEntry.fd

/-- The inode and the access mode of the descriptor cached for a name. -/
def cachedFile (w : LocalWorld) (p : CString) : Option (Nat × Access) :=
  (cachedFd w (w.priv.basePath ++ slash :: p)).bind fun fd => (w.fs.fds fd).map fun f => (f.ino, f.access)

structure LocalOk (base : CString) (d : Place) (w : LocalWorld) : Prop where
  path : w.priv.basePath = base
  dir : BaseDir base d w.fs
  fs : w.fs.Ok
  cache : ∀ path fd, cachedFd w path = some fd → (w.fs.fds fd).isSome

/-- The files of the base directory, by name. -/
def localMap (d : Place) (w : LocalWorld) : FileMap := fun p =>
  if Fs.FlatName p then w.fs.contentAt (d ++ [p]) else none

/-- The descriptor cached for `p`, if there is one, leads to the file named `p`. -/
def LiveAt (d : Place) (w : LocalWorld) (p : CString) : Prop :=
  ∀ ino access, cachedFile w p = some (ino, access) → w.fs.files (d ++ [p]) = some ino

/-- What every call keeps, and the files it leaves. -/
structure LocalStep (base : CString) (d : Place) (w w' : LocalWorld) (m : FileMap) : Prop where
  ok : LocalOk base d w'
  map : localMap d w' = m
  live : ∀ q, Fs.FlatName q → LiveAt d w q → LiveAt d w' q

section
variable {base : CString} {d : Place} {w w' : LocalWorld} {p : CString}

theorem LocalStep.refl (h : LocalOk base d w) : LocalStep base d w w (localMap d w) := ⟨h, rfl, fun _ _ hl => hl⟩

theorem localMap_eq (hp : Fs.FlatName p) : localMap d w p = w.fs.contentAt (d ++ [p]) := if_pos hp

theorem contentAt_eq_none {fs : Fs} {q : Place} : fs.contentAt q = none ↔ fs.files q = none := Option.map_eq_none_iff

/-- A change of the file system alone, that leaves the tree, the files of cached
descriptors and every name's inode as they are. -/
theorem LocalStep.withFs {fs : Fs} (h : LocalOk base d w) (hcwd : fs.cwd = w.fs.cwd) (hdir : fs.isDir = w.fs.isDir)
    (hok : fs.Ok) (hfds : ∀ path fd f, cachedFd w path = some fd → w.fs.fds fd = some f →
      (fs.fds fd).map (fun f => (f.ino, f.access)) = some (f.ino, f.access)) (hfiles : ∀ q ino, w.fs.files q = some ino → fs.files q = some ino) :
    LocalStep base d w (w.withFs fs) (localMap d (w.withFs fs)) := by
  have hcached : ∀ q, cachedFile (w.withFs fs) q = cachedFile w q := by
    intro q
    simp only [cachedFile]
    cases hc : cachedFd w (w.priv.basePath ++ slash :: q) with
    | none => exact congrArg (Option.bind · _) hc
    | some fd =>
      obtain ⟨f, hf⟩ := Option.isSome_iff_exists.1 (h.cache _ fd hc)
      have hc' : cachedFd (w.withFs fs) ((w.withFs fs).priv.basePath ++ slash :: q) = some fd := hc
      rw [hc', Option.bind_some, Option.bind_some, hf]
      exact hfds _ fd f hc hf
  refine ⟨⟨h.path, h.dir.congr hcwd hdir, hok, fun path fd hc => ?_⟩, rfl, fun q _ hl ino access hq => ?_⟩
  · obtain ⟨f, hf⟩ := Option.isSome_iff_exists.1 (h.cache path fd hc)
    have := congrArg Option.isSome (hfds path fd f hc hf)
    simpa [LocalWorld.withFs] using this
  · exact hfiles _ _ (hl ino access (hcached q ▸ hq))

/-! ## Descriptors -/

/-- A call gets the access it asks for, unless the cached descriptor has another one. -/
theorem cached_access_iff {access : Access} :
    ((cachedFile w p).map Prod.snd).getD access = access ↔ ∀ r ∈ cachedFile w p, r.2 = access := by
  cases cachedFile w p <;> simp

theorem cached_entry {path : CString} {fd : Nat} (h : cachedFd w path = some fd) :
    ∃ i e, indexOf FdCacheEntry.path w.priv.fdCache path = some i ∧ w.priv.fdCache[i]? = some e ∧
      lookup FdCacheEntry.path w.priv.fdCache path = some e ∧ e.fd = fd := by
  obtain ⟨e, he, hfd⟩ := Option.map_eq_some_iff.1 h
  cases hi : indexOf FdCacheEntry.path w.priv.fdCache path with
  | none =>
    rw [(indexOf_eq_none FdCacheEntry.path).1 hi] at he
    cases he
  | some i =>
    obtain ⟨e', hget, hlook⟩ := getElem?_indexOf FdCacheEntry.path hi
    rw [he] at hlook
    cases hlook
    exact ⟨i, e, rfl, hget, he, hfd⟩

/-- A cached descriptor is taken as it is. -/
theorem getFileDescriptor_cached (env : CallEnv) {path : CString} {fd : Nat} (h : cachedFd w path = some fd)
    (flags : OpenFlags) :
    ∃ cache, getFileDescriptor env w path flags = some (w.withCache cache, some fd) ∧
      ∀ path', cachedFd (w.withCache cache) path' = cachedFd w path' := by
  obtain ⟨i, e, hi, hget, hlook, rfl⟩ := cached_entry h
  refine ⟨w.priv.fdCache.set i { e with lastAccess := env.now }, ?_, fun path' => ?_⟩
  · simp only [getFileDescriptor, hi, Option.bind_some, hget, Option.map_some]
  · have hkey : e.path = path := key_of_lookup FdCacheEntry.path hlook
    have hset := lookup_set FdCacheEntry.path hi (x := { e with lastAccess := env.now }) hkey path'
    simp only [cachedFd, LocalWorld.withCache, hset]
    split
    · rename_i he
      rw [he, hlook]
      rfl
    · rfl

/-- What becomes of a descriptor that is opened. -/
theorem getFileDescriptor_opens {path : CString} {flags : OpenFlags} {fs : Fs} {fd : Nat} (env : CallEnv)
    (hc : cachedFd w path = none) (hopen : w.fs.openFile path flags = .ok (fs, fd)) :
    getFileDescriptor env w path flags =
      if w.priv.fdCache.length < w.priv.maxOpenFiles then
        if maxPathLen - 1 ≤ path.length then none
        else some ((w.withFs fs).withCache (w.priv.fdCache ++ [⟨path, fd, env.now⟩]), some fd)
      else some (w.withFs fs, some fd) := by
  have hmiss := (indexOf_eq_none FdCacheEntry.path).2 (Option.map_eq_none_iff.1 hc)
  simp only [getFileDescriptor, hmiss, Option.bind_none, hopen]

/-- A path that is not in the cache is opened, and cached while there is room. -/
theorem getFileDescriptor_opened {env : CallEnv} {path : CString} {flags : OpenFlags} {fs : Fs} {fd : Nat}
    (h : cachedFd w path = none) (hlen : path.length < maxPathLen - 1) (hopen : w.fs.openFile path flags = .ok (fs, fd)) :
    ∃ cache, getFileDescriptor env w path flags = some ((w.withFs fs).withCache cache, some fd) ∧
      (∀ path' ≠ path, cachedFd (w.withCache cache) path' = cachedFd w path') ∧
      (cachedFd (w.withCache cache) path = none ∨ cachedFd (w.withCache cache) path = some fd) := by
  have hlook : lookup FdCacheEntry.path w.priv.fdCache path = none := Option.map_eq_none_iff.1 h
  have hget := getFileDescriptor_opens env h hopen
  by_cases hroom : w.priv.fdCache.length < w.priv.maxOpenFiles
  · rw [if_pos hroom, if_neg (Nat.not_le.2 hlen)] at hget
    refine ⟨w.priv.fdCache ++ [⟨path, fd, env.now⟩], hget, fun path' hne => ?_, .inr ?_⟩
    · simp [cachedFd, LocalWorld.withCache, lookup_append, lookup_cons, Ne.symm hne]
    · simp [cachedFd, LocalWorld.withCache, lookup_append, lookup_cons, hlook]
  · rw [if_neg hroom] at hget
    exact ⟨w.priv.fdCache, hget, fun _ _ => rfl, .inl h⟩

theorem getFileDescriptor_failed {env : CallEnv} {path : CString} {flags : OpenFlags} {e : Errno}
    (h : cachedFd w path = none) (hopen : w.fs.openFile path flags = .error e) :
    getFileDescriptor env w path flags = some (w, none) := by
  have hmiss := (indexOf_eq_none FdCacheEntry.path).2 (Option.map_eq_none_iff.1 h)
  simp only [getFileDescriptor, hmiss, Option.bind_none, hopen]

theorem LocalOk.cachedFd_none (h : LocalOk base d w) (hc : cachedFile w p = none) :
    cachedFd w (base ++ slash :: p) = none := by
  cases hfd : cachedFd w (base ++ slash :: p) with
  | none => rfl
  | some fd =>
    obtain ⟨f, hf⟩ := Option.isSome_iff_exists.1 (h.cache _ fd hfd)
    simp [cachedFile, h.path, hfd, hf] at hc

/-- With its new descriptor cached or not, the backend is as the new file system
makes it. -/
theorem LocalStep.withCache {fs : Fs} {m : FileMap} (h : LocalStep base d w (w.withFs fs) m) {fd : Nat} {f : OpenFile}
    (hfd : fs.fds fd = some f) (hfile : fs.files (d ++ [p]) = some f.ino) {cache : List FdCacheEntry}
    (hother : ∀ path' ≠ base ++ slash :: p, cachedFd (w.withCache cache) path' = cachedFd w path')
    (hown : cachedFd (w.withCache cache) (base ++ slash :: p) = none ∨
      cachedFd (w.withCache cache) (base ++ slash :: p) = some fd) :
    LocalStep base d w ((w.withFs fs).withCache cache) m := by
  have hpath : w.priv.basePath = base := h.ok.path
  have hfd' : ∀ path', cachedFd ((w.withFs fs).withCache cache) path' = cachedFd (w.withCache cache) path' :=
    fun _ => rfl
  refine ⟨⟨h.ok.path, h.ok.dir, h.ok.fs, fun path' fd' hc => ?_⟩, h.map, fun q hq hl ino access hqc => ?_⟩
  · rw [hfd'] at hc
    by_cases hpath' : path' = base ++ slash :: p
    · rw [hpath'] at hc
      rcases hown with hnone | hsome
      · rw [hnone] at hc
        cases hc
      · rw [hsome] at hc
        cases hc
        exact Option.isSome_of_eq_some hfd
    · exact h.ok.cache path' fd' ((hother path' hpath').symm.trans hc)
  · simp only [cachedFile, hfd'] at hqc
    by_cases hqp : q = p
    · subst hqp
      obtain ⟨fd', hc, hf⟩ := Option.bind_eq_some_iff.1 hqc
      have hc' : cachedFd (w.withCache cache) (base ++ slash :: q) = some fd' := hpath ▸ hc
      rcases hown with hnone | hsome
      · rw [hnone] at hc'
        cases hc'
      · rw [hsome] at hc'
        cases hc'
        have hf' : (fs.fds fd).map (fun f => (f.ino, f.access)) = some (ino, access) := hf
        rw [hfd] at hf'
        cases hf'
        exact hfile
    · refine h.live q hq hl ino access ?_
      have hne : base ++ slash :: q ≠ base ++ slash :: p := by simpa using hqp
      have : cachedFd (w.withCache cache) (w.priv.basePath ++ slash :: q) =
          cachedFd (w.withFs fs) (w.priv.basePath ++ slash :: q) := by
        rw [hpath]
        exact hother _ hne
      rw [cachedFile]
      exact this ▸ hqc

/-- A new time of access, and the same descriptors. -/
theorem LocalStep.recached (h : LocalOk base d w) {cache : List FdCacheEntry}
    (hsame : ∀ path, cachedFd (w.withCache cache) path = cachedFd w path) :
    LocalStep base d w (w.withCache cache) (localMap d w) := by
  have hfile : ∀ q, cachedFile (w.withCache cache) q = cachedFile w q := fun q => congrArg (Option.bind · _) (hsame _)
  refine ⟨⟨h.path, h.dir, h.fs, fun path fd hc => h.cache path fd ((hsame path).symm.trans hc)⟩, rfl, ?_⟩
  exact fun q _ hl ino access hq => hl ino access ((hfile q).symm.trans hq)

/-- Another descriptor of a file that is there. -/
theorem LocalStep.newFd (h : LocalOk base d w) {ino : Nat} (hino : ino < w.fs.nextIno) (access : Access) :
    LocalStep base d w (w.withFs (w.fs.newFd ino access)) (localMap d w) := by
  refine LocalStep.withFs h rfl rfl (h.fs.newFd hino _) (fun _ fd f _ hopen => ?_) (fun _ _ hq => hq)
  have := (h.fs.fd fd f hopen).1
  simp [Fs.newFd, Nat.ne_of_lt this, hopen]

/-- The files after a descriptor is had for `p`: it is there, empty if it was not. -/
def FileMap.touch (m : FileMap) (p : CString) : FileMap := if m p = none then m.set p (some []) else m

theorem FileMap.touch_set (m : FileMap) (p : CString) (c : Option Bytes) : (m.touch p).set p c = m.set p c := by
  unfold FileMap.touch
  split
  · funext q
    simp only [FileMap.set]
    split <;> rfl
  · rfl

/-- A new file with a descriptor. -/
theorem LocalStep.newFile (h : LocalOk base d w) (hp : Fs.FlatName p) (hf : w.fs.files (d ++ [p]) = none)
    (access : Access) :
    LocalStep base d w (w.withFs ((w.fs.newFile (d ++ [p])).newFd w.fs.nextIno access)) ((localMap d w).touch p) := by
  have hnone : localMap d w p = none := by rw [localMap_eq hp, contentAt_eq_none, hf]
  have htouch : localMap d (w.withFs ((w.fs.newFile (d ++ [p])).newFd w.fs.nextIno access)) =
      (localMap d w).touch p := by
    rw [FileMap.touch, if_pos hnone]
    funext q
    have := Fs.contentAt_newFile h.fs (d ++ [p]) (d ++ [q])
    simp only [localMap, FileMap.set, LocalWorld.withFs, Fs.contentAt_newFd, this]
    by_cases hq : q = p
    · subst hq
      simp [hp]
    · simp [hq]
  rw [← htouch]
  refine LocalStep.withFs h rfl rfl ((h.fs.newFile _).newFd (by simp [Fs.newFile]) _) (fun _ fd f _ hopen => ?_)
    (fun q ino hq => ?_)
  · have := (h.fs.fd fd f hopen).1
    simp [Fs.newFd, Fs.newFile, Nat.ne_of_lt this, hopen]
  · simp only [Fs.newFd, Fs.newFile]
    rw [if_neg fun he => by rw [he, hf] at hq; cases hq]
    exact hq

/-- A descriptor for a file that is there or may be made: the cached one, or one
with the access asked for. -/
theorem acquire (env : CallEnv) (flags : OpenFlags) (h : LocalOk base d w) (hp : FlatPath base p)
    (hlive : LiveAt d w p) (hexcl : flags.excl = false) (hfile : localMap d w p ≠ none ∨ flags.creat = true) :
    ∃ w' fd f, getFileDescriptor env w (base ++ slash :: p) flags = some (w', some fd) ∧
      LocalStep base d w w' ((localMap d w).touch p) ∧ w'.fs.fds fd = some f ∧
      w'.fs.files (d ++ [p]) = some f.ino ∧
      f.access = ((cachedFile w p).map Prod.snd).getD flags.access := by
  have hmap := localMap_eq (d := d) (w := w) hp.name
  cases hc : cachedFile w p with
  | some r =>
    obtain ⟨ino, access⟩ := r
    obtain ⟨fd, hfd, hf⟩ := Option.bind_eq_some_iff.1 hc
    obtain ⟨f, hopen, he⟩ := Option.map_eq_some_iff.1 hf
    cases he
    have hino := hlive _ _ hc
    rw [h.path] at hfd
    obtain ⟨cache, hget, hsame⟩ := getFileDescriptor_cached env hfd flags
    refine ⟨_, fd, f, hget, ?_, hopen, hino, rfl⟩
    have htouch : (localMap d w).touch p = localMap d w := by
      rw [FileMap.touch, if_neg]
      rw [hmap, contentAt_eq_none.not, hino]
      exact nofun
    rw [htouch]
    exact (LocalStep.refl h).withCache hopen hino (fun path' _ => hsame path') (.inr ((hsame _).trans hfd))
  | none =>
    have hfd := h.cachedFd_none hc
    have hlen : (base ++ slash :: p).length < maxPathLen - 1 := by
      have := hp.fits
      simp only [List.length_append, List.length_cons]
      omega
    have hres := Fs.resolve_entry h.dir.resolves h.dir.dir hp.name
    have hplain := Fs.slashBehindName_entry base hp.name
    have hflat := h.dir.flat p
    cases hf : w.fs.files (d ++ [p]) with
    | some ino =>
      have hopen : w.fs.openFile (base ++ slash :: p) flags = .ok (w.fs.newFd ino flags.access, w.fs.nextFd) := by
        simp [Fs.openFile, hplain, hres, hflat, hf, hexcl]
      obtain ⟨cache, hget, hother, hown⟩ := getFileDescriptor_opened hfd hlen hopen
      have hnew := Fs.newFd_self w.fs ino flags.access
      refine ⟨_, w.fs.nextFd, ⟨ino, flags.access, 0⟩, hget, ?_, hnew, hf, rfl⟩
      have htouch : (localMap d w).touch p = localMap d w := by
        rw [FileMap.touch, if_neg]
        rw [hmap, contentAt_eq_none.not, hf]
        exact nofun
      rw [htouch]
      exact (LocalStep.newFd h (h.fs.ino _ _ hf) flags.access).withCache hnew hf hother hown
    | none =>
      have hnone : localMap d w p = none := by rw [hmap, contentAt_eq_none, hf]
      have hcreat : flags.creat = true := hfile.resolve_left fun hne => hne hnone
      have hopen : w.fs.openFile (base ++ slash :: p) flags =
          .ok ((w.fs.newFile (d ++ [p])).newFd w.fs.nextIno flags.access, w.fs.nextFd) := by
        simp [Fs.openFile, hplain, hres, hflat, hf, hcreat]
      obtain ⟨cache, hget, hother, hown⟩ := getFileDescriptor_opened hfd hlen hopen
      have hnew := Fs.newFd_self (w.fs.newFile (d ++ [p])) w.fs.nextIno flags.access
      have hplace := Fs.newFile_self w.fs (d ++ [p])
      refine ⟨_, w.fs.nextFd, ⟨w.fs.nextIno, flags.access, 0⟩, hget, ?_, hnew, hplace, rfl⟩
      exact (LocalStep.newFile h hp.name hf flags.access).withCache hnew hplace hother hown

/-! ## Calls -/

theorem LocalStep.trans {w1 w2 : LocalWorld} {m m' : FileMap} (h : LocalStep base d w w1 m)
    (h' : LocalStep base d w1 w2 m') : LocalStep base d w w2 m' :=
  ⟨h'.ok, h'.map, fun q hq hl => h'.live q hq (h.live q hq hl)⟩

/-- Two steps that leave the files alone. -/
theorem LocalStep.keep {w1 w2 : LocalWorld} (h : LocalStep base d w w1 (localMap d w))
    (h' : LocalStep base d w1 w2 (localMap d w1)) : LocalStep base d w w2 (localMap d w) :=
  h.map ▸ h.trans h'

theorem LocalStep.withStats {m : FileMap} (h : LocalStep base d w w' m) (st : StorageStats) :
    LocalStep base d w (w'.withStats st) m :=
  ⟨⟨h.ok.path, h.ok.dir, h.ok.fs, h.ok.cache⟩, h.map, h.live⟩

/-- Moving an open descriptor changes nothing else. -/
theorem LocalStep.setOffset (h : LocalOk base d w) {fd : Nat} {f : OpenFile} (hf : w.fs.fds fd = some f)
    (offset : Nat) : LocalStep base d w (w.withFs (w.fs.setOffset fd f offset)) (localMap d w) := by
  refine LocalStep.withFs h rfl rfl (h.fs.setOffset hf offset) (fun _ fd' f' _ hf' => ?_) (fun _ _ hq => hq)
  simp only [Fs.setOffset]
  split
  · rename_i he
    rw [he, hf] at hf'
    cases hf'
    rfl
  · rw [hf']
    rfl

theorem seekTo_open {fs : Fs} {fd : Nat} {f : OpenFile} (hf : fs.fds fd = some f) {offset : Nat}
    (ho : offset < 2 ^ 63) : seekTo fs fd offset = some (fs.setOffset fd f offset) := by
  simp only [seekTo, Fs.lseek, hf, if_pos ho]

theorem setOffset_self (fs : Fs) (fd : Nat) (f : OpenFile) (offset : Nat) :
    (fs.setOffset fd f offset).fds fd = some { f with offset := offset } := if_pos rfl

/-- Without the file there is no descriptor either. -/
theorem cachedFile_missing (hp : Fs.FlatName p) (hlive : LiveAt d w p) (hnone : localMap d w p = none) :
    cachedFile w p = none := by
  cases hc : cachedFile w p with
  | none => rfl
  | some r =>
    rw [localMap_eq hp, contentAt_eq_none, hlive r.1 r.2 hc] at hnone
    cases hnone

theorem openFile_missing (h : LocalOk base d w) (hp : FlatPath base p) (hlive : LiveAt d w p)
    (hnone : localMap d w p = none) {env : CallEnv} {flags : OpenFlags} (hcreat : flags.creat = false) :
    getFileDescriptor env w (base ++ slash :: p) flags = some (w, none) := by
  have hfile : w.fs.files (d ++ [p]) = none := by
    rw [← contentAt_eq_none, ← localMap_eq hp.name]
    exact hnone
  refine getFileDescriptor_failed (h.cachedFd_none (cachedFile_missing hp.name hlive hnone)) (e := .noent) ?_
  simp [Fs.openFile, Fs.resolve_entry h.dir.resolves h.dir.dir hp.name, h.dir.flat p, hfile, hcreat]

section
variable (env : CallEnv) {off n : Nat} {data : Bytes}

theorem localRead_missing (h : LocalOk base d w) (hp : FlatPath base p) (hlive : LiveAt d w p)
    (hnone : localMap d w p = none) (hn : n ≠ 0) :
    localStorageReadSync env w p off n = some (w, .ofCode .io) := by
  rw [localStorageReadSync, if_neg hn, h.path, buildFilePath_flat hp, openFile_missing h hp hlive hnone rfl]
  rfl

/-- A descriptor for a file that is there, and the inode behind it. -/
theorem acquire_found (flags : OpenFlags) (h : LocalOk base d w) (hp : FlatPath base p)
    (hlive : LiveAt d w p) (hexcl : flags.excl = false) {c : Bytes} (hc : localMap d w p = some c) :
    ∃ w' fd f, getFileDescriptor env w (base ++ slash :: p) flags = some (w', some fd) ∧
      LocalStep base d w w' (localMap d w) ∧ w'.fs.fds fd = some f ∧ w'.fs.inodes f.ino = c ∧
      w'.fs.files (d ++ [p]) = some f.ino ∧ f.access = ((cachedFile w p).map Prod.snd).getD flags.access := by
  obtain ⟨w', fd, f, hget, hstep, hf, hfile, hacc⟩ := acquire env flags h hp hlive hexcl (.inl (by rw [hc]; exact nofun))
  rw [FileMap.touch, if_neg (by rw [hc]; exact nofun)] at hstep
  refine ⟨w', fd, f, hget, hstep, hf, ?_, hfile, hacc⟩
  have := congrFun hstep.map p
  rw [localMap_eq hp.name, Fs.contentAt, hfile, hc] at this
  exact Option.some.inj this

/-- A read of a file needs a descriptor that may read, and reads all or nothing. -/
theorem localRead_found (h : LocalOk base d w) (hp : FlatPath base p) (hlive : LiveAt d w p) {c : Bytes}
    (hc : localMap d w p = some c) (hn : n ≠ 0) (ho : off + n < 2 ^ 63) :
    ∃ w', localStorageReadSync env w p off n = some (w',
        if ((cachedFile w p).map Prod.snd).getD .rdonly ≠ .rdonly then .ofCode .io
        else if off + n ≤ c.length then ⟨.ok, (c.drop off).take n, 0⟩ else .ofCode .notFound) ∧
      LocalStep base d w w' (localMap d w) := by
  obtain ⟨w1, fd, f, hget, hstep, hf, rfl, -, hacc⟩ := acquire_found env ⟨.rdonly, false, false⟩ h hp hlive rfl hc
  have hseek := hstep.keep (LocalStep.setOffset hstep.ok hf off)
  have hoff : off < 2 ^ 63 := Nat.lt_of_le_of_lt (Nat.le_add_right off n) ho
  have hsize : ¬ 2 ^ 63 ≤ n := by omega
  have hlast : n ≠ 2 ^ 64 - 1 := by omega
  have hacc : f.access = ((cachedFile w p).map Prod.snd).getD .rdonly := hacc
  rw [localStorageReadSync, if_neg hn, h.path, buildFilePath_flat hp, hget]
  simp only [Option.map_some, seekTo_open hf hoff, Fs.read, setOffset_self, ← hacc]
  by_cases hr : f.access ≠ .rdonly
  · simp only [if_pos hr, if_neg hlast]
    exact ⟨_, rfl, hseek⟩
  · have hread := hseek.keep (LocalStep.setOffset hseek.ok (setOffset_self _ _ _ _)
      (off + (((w1.fs.inodes f.ino).drop off).take n).length))
    have hbytes : (((w1.fs.inodes f.ino).drop off).take n).length ≠ n ↔ ¬ off + n ≤ (w1.fs.inodes f.ino).length := by
      rw [List.length_take, List.length_drop]
      omega
    simp only [if_neg hr, if_neg hsize, Fs.setOffset, hbytes]
    by_cases hin : off + n ≤ (w1.fs.inodes f.ino).length
    · rw [if_neg (not_not.2 hin), if_pos hin]
      exact ⟨_, rfl, hread.withStats _⟩
    · rw [if_pos hin, if_neg hin]
      exact ⟨_, rfl, hread⟩

/-- Writing through a live descriptor writes to the file. -/
theorem LocalStep.setInode (h : LocalOk base d w) (hp : Fs.FlatName p) {ino : Nat}
    (hfile : w.fs.files (d ++ [p]) = some ino) (c : Bytes) :
    LocalStep base d w (w.withFs (w.fs.setInode ino c)) ((localMap d w).set p (some c)) := by
  have hmap : localMap d (w.withFs (w.fs.setInode ino c)) = (localMap d w).set p (some c) := by
    funext q
    have := Fs.contentAt_setInode h.fs hfile c (d ++ [q])
    simp only [localMap, FileMap.set, LocalWorld.withFs, this]
    by_cases hq : q = p
    · subst hq
      simp [hp]
    · simp [hq]
  rw [← hmap]
  refine LocalStep.withFs h rfl rfl (h.fs.setInode ino c) (fun _ fd f _ hf => ?_) (fun _ _ hq => hq)
  simp [Fs.setInode, hf]

/-- A write needs a descriptor that may write. -/
theorem localWrite_spec (h : LocalOk base d w) (hp : FlatPath base p) (hlive : LiveAt d w p)
    (hd : data.length ≠ 0) (ho : off + data.length < 2 ^ 63) :
    ∃ w' r, localStorageWriteSync env w p off data = some (w', r) ∧
      if ((cachedFile w p).map Prod.snd).getD .wronly ≠ .wronly then
        r = .ofCode .io ∧ LocalStep base d w w' (localMap d w)
      else r = .ofCode .ok ∧
        LocalStep base d w w' ((localMap d w).set p (some (writeAt 0 ((localMap d w p).getD []) off data))) := by
  obtain ⟨w1, fd, f, hget, hstep, hf, hfile, hacc⟩ := acquire env ⟨.wronly, true, false⟩ h hp hlive rfl (.inr rfl)
  have hseek := hstep.trans (LocalStep.setOffset hstep.ok hf off)
  have hfs : w.withFs w.fs = w := rfl
  have hoff : off < 2 ^ 63 := Nat.lt_of_le_of_lt (Nat.le_add_right off _) ho
  have hsize : ¬ 2 ^ 63 ≤ data.length := by omega
  have hlast : data.length ≠ 2 ^ 64 - 1 := by omega
  have hacc : f.access = ((cachedFile w p).map Prod.snd).getD .wronly := hacc
  rw [localStorageWriteSync, if_neg hd]
  simp only [h.path, buildFilePath_flat hp, createParents_flat h.dir hp, Option.bind_some, hfs, hget, Option.map_some,
    seekTo_open hf hoff, Fs.write, setOffset_self, ← hacc]
  by_cases hr : f.access ≠ .wronly
  · simp only [if_pos hr, if_neg hlast]
    refine ⟨_, _, rfl, rfl, ?_⟩
    -- only a cached descriptor has another access, so the file was there
    have hthere : localMap d w p ≠ none := by
      intro hnone
      rw [cachedFile_missing hp.name hlive hnone] at hacc
      exact hr hacc
    have htouch : (localMap d w).touch p = localMap d w := if_neg hthere
    rw [hstep.map, htouch] at hseek
    exact hseek
  · simp only [if_neg hr, if_neg hsize]
    refine ⟨_, _, rfl, rfl, LocalStep.withStats ?_ _⟩
    have hwrite := hseek.trans (LocalStep.setInode hseek.ok hp.name hfile (writeAt 0 (w1.fs.inodes f.ino) off data))
    have hfd : ((w1.withFs (w1.fs.setOffset fd f off)).fs.setInode f.ino
        (writeAt 0 (w1.fs.inodes f.ino) off data)).fds fd = some { f with offset := off } := setOffset_self _ _ _ _
    have hmove := hwrite.trans (LocalStep.setOffset hwrite.ok hfd (off + data.length))
    have hino : w1.fs.inodes f.ino = (localMap d w p).getD [] := by
      have := congrFun hstep.map p
      rw [localMap_eq hp.name, Fs.contentAt, hfile, FileMap.touch] at this
      cases hm : localMap d w p with
      | none => simpa [hm] using this
      | some c => simpa [hm] using this
    have hmap : (localMap d (w1.withFs (w1.fs.setOffset fd f off))).set p
        (some (writeAt 0 (w1.fs.inodes f.ino) off data)) =
        (localMap d w).set p (some (writeAt 0 ((localMap d w p).getD []) off data)) := by
      rw [hseek.map, hstep.map, hino, FileMap.touch_set]
    rw [hwrite.map, hmap] at hmove
    exact hmove

/-- Any descriptor of a file can be synchronised. -/
theorem localFsync_found (h : LocalOk base d w) (hp : FlatPath base p) (hlive : LiveAt d w p) {c : Bytes}
    (hc : localMap d w p = some c) :
    ∃ w', localStorageFsync env w p = some (w', .ofCode .ok) ∧ LocalStep base d w w' (localMap d w) := by
  obtain ⟨w1, fd, f, hget, hstep, hf, -, -, -⟩ := acquire_found env ⟨.wronly, false, false⟩ h hp hlive rfl hc
  refine ⟨w1, ?_, hstep⟩
  simp [localStorageFsync, h.path, buildFilePath_flat hp, hget, Fs.fsync, hf]

theorem localFsync_missing (h : LocalOk base d w) (hp : FlatPath base p) (hlive : LiveAt d w p)
    (hnone : localMap d w p = none) : localStorageFsync env w p = some (w, .ofCode .io) := by
  rw [localStorageFsync, h.path, buildFilePath_flat hp, openFile_missing h hp hlive hnone rfl]
  rfl

/-! ### Paths that do not fit -/

/-- Such a path is cut, and there is no copying it. -/
theorem buildFilePath_long (hp : Fs.FlatName p) (hlong : maxPathLen - 1 ≤ base.length + 1 + p.length) :
    maxPathLen - 1 ≤ (buildFilePath base p maxPathLen).length := by
  have hhead : p.head? ≠ some slash := fun he => hp.flat (List.mem_of_head? he)
  rw [buildFilePath, if_neg hhead, snprintf, List.length_take, List.length_append, List.length_cons]
  omega

theorem createParents_long (fs : Fs) (hp : Fs.FlatName p) (hlong : maxPathLen - 1 ≤ base.length + 1 + p.length) :
    createParents fs (buildFilePath base p maxPathLen) = none := if_pos (buildFilePath_long hp hlong)

/-- Opening without making a file leaves the files as they are. -/
theorem LocalStep.opened (h : LocalOk base d w) {fs : Fs} {path : CString} {flags : OpenFlags} {fd : Nat}
    (hcreat : flags.creat = false) (hopen : w.fs.openFile path flags = .ok (fs, fd)) :
    LocalStep base d w (w.withFs fs) (localMap d w) := by
  obtain ⟨q, -, hopens⟩ := Fs.openFile_ok hopen
  cases hopens with
  | found ino hino => exact LocalStep.newFd h (h.fs.ino q ino hino) flags.access
  | made hnone hmakes =>
    rw [hcreat] at hmakes
    cases hmakes
  | directory =>
    refine LocalStep.withFs h rfl rfl h.fs.openDir (fun _ fd' f' _ hf' => ?_) (fun _ _ hq => hq)
    have hlt := (h.fs.fd fd' f' hf').1
    simp only [Fs.newFd, if_neg (Nat.ne_of_lt hlt), hf', Option.map_some]

/-- The descriptor of such a path is never put in the cache. -/
theorem getFileDescriptor_long (h : LocalOk base d w) {path : CString} (hlong : maxPathLen - 1 ≤ path.length)
    {flags : OpenFlags} (hcreat : flags.creat = false) {r : Option Nat}
    (hget : getFileDescriptor env w path flags = some (w', r)) : LocalStep base d w w' (localMap d w) := by
  cases hc : cachedFd w path with
  | some fd =>
    obtain ⟨cache, hget', hsame⟩ := getFileDescriptor_cached env hc flags
    rw [hget] at hget'
    cases hget'
    exact LocalStep.recached h hsame
  | none =>
    cases hopen : w.fs.openFile path flags with
    | error e =>
      rw [getFileDescriptor_failed hc hopen] at hget
      cases hget
      exact LocalStep.refl h
    | ok opened =>
      obtain ⟨fs, fd⟩ := opened
      rw [getFileDescriptor_opens env hc hopen, if_pos hlong] at hget
      split at hget
      · cases hget
      · cases hget
        exact LocalStep.opened h hcreat hopen

theorem seekTo_keeps (h : LocalOk base d w) {fd : Nat} {fs : Fs} (hseek : seekTo w.fs fd off = some fs) :
    LocalStep base d w (w.withFs fs) (localMap d w) := by
  unfold seekTo Fs.lseek at hseek
  cases hf : w.fs.fds fd with
  | none =>
    simp only [hf] at hseek
    split at hseek
    · cases hseek
      exact LocalStep.refl h
    · cases hseek
  | some f =>
    simp only [hf] at hseek
    split at hseek
    · rename_i hlt
      split at hlt
      · cases hlt
        cases hseek
        exact LocalStep.setOffset h hf off
      · cases hlt
    · split at hseek
      · cases hseek
        exact LocalStep.refl h
      · cases hseek

theorem read_keeps (h : LocalOk base d w) {fd : Nat} {fs : Fs} {bytes : Bytes}
    (hread : w.fs.read fd n = .ok (fs, bytes)) : LocalStep base d w (w.withFs fs) (localMap d w) := by
  obtain ⟨f, hf, -, -, -, rfl⟩ := Fs.read_ok hread
  exact LocalStep.setOffset h hf _

theorem localRead_long (h : LocalOk base d w) (hp : Fs.FlatName p)
    (hlong : maxPathLen - 1 ≤ base.length + 1 + p.length) {r : StorageReply}
    (hcall : localStorageReadSync env w p off n = some (w', r)) : LocalStep base d w w' (localMap d w) := by
  rw [localStorageReadSync] at hcall
  split at hcall
  · cases hcall
    exact LocalStep.refl h
  · obtain ⟨⟨w1, fd⟩, hget, hcall⟩ := Option.map_eq_some_iff.1 hcall
    have hstep := getFileDescriptor_long env h (h.path ▸ buildFilePath_long hp hlong) rfl hget
    cases fd with
    | none =>
      cases hcall
      exact hstep
    | some fd =>
      dsimp only at hcall
      split at hcall
      · cases hcall
        exact hstep
      · rename_i fs hseek
        have hseek := hstep.keep (seekTo_keeps hstep.ok hseek)
        split at hcall
        · split at hcall <;> cases hcall
          · exact hseek.withStats _
          · exact hseek
        · rename_i hread
          have hread := hseek.keep (read_keeps hseek.ok hread)
          split at hcall <;> cases hcall
          · exact hread
          · exact hread.withStats _

theorem localFsync_long (h : LocalOk base d w) (hp : Fs.FlatName p)
    (hlong : maxPathLen - 1 ≤ base.length + 1 + p.length) {r : StorageReply}
    (hcall : localStorageFsync env w p = some (w', r)) : LocalStep base d w w' (localMap d w) := by
  obtain ⟨⟨w1, fd⟩, hget, hcall⟩ := Option.map_eq_some_iff.1 hcall
  have hstep := getFileDescriptor_long env h (h.path ▸ buildFilePath_long hp hlong) rfl hget
  cases fd with
  | none =>
    cases hcall
    exact hstep
  | some fd =>
    dsimp only at hcall
    split at hcall <;> cases hcall <;> exact hstep

/-- Closing a descriptor that is not cached. -/
theorem LocalStep.close (h : LocalOk base d w) {fd : Nat} (hfd : ∀ path, cachedFd w path ≠ some fd) :
    LocalStep base d w (w.withFs (w.fs.close fd)) (localMap d w) := by
  refine LocalStep.withFs h rfl rfl (h.fs.close fd) (fun path fd' f hc hf => ?_) (fun _ _ hq => hq)
  have hne : fd' ≠ fd := fun he => hfd path (he ▸ hc)
  simp [Fs.close, hne, hf]

/-- Creating a file goes past the cache. -/
theorem localCreate_spec (h : LocalOk base d w) (hp : FlatPath base p) (hn : n < 2 ^ 63) :
    ∃ w', localStorageCreateFile w p n = some (w', ((localMap d w).createFile p n).2) ∧
      LocalStep base d w w' ((localMap d w).createFile p n).1 := by
  have hmap := localMap_eq (d := d) (w := w) hp.name
  have hres := Fs.resolve_entry h.dir.resolves h.dir.dir hp.name
  have hplain := Fs.slashBehindName_entry base hp.name
  rw [localStorageCreateFile]
  simp only [h.path, buildFilePath_flat hp, createParents_flat h.dir hp, Option.map_some]
  cases hf : w.fs.files (d ++ [p]) with
  | some ino =>
    have hsome : localMap d w p = some (w.fs.inodes ino) := by rw [hmap, Fs.contentAt, hf]; rfl
    have hopen : w.fs.openFile (base ++ slash :: p) ⟨.wronly, true, true⟩ = .error .exist := by
      simp [Fs.openFile, hplain, hres, h.dir.flat p, hf]
    simp only [hopen, FileMap.createFile, hsome]
    exact ⟨w, rfl, LocalStep.refl h⟩
  | none =>
    have hnone : localMap d w p = none := by rw [hmap, contentAt_eq_none, hf]
    have hopen : w.fs.openFile (base ++ slash :: p) ⟨.wronly, true, true⟩ =
        .ok ((w.fs.newFile (d ++ [p])).newFd w.fs.nextIno .wronly, w.fs.nextFd) := by
      simp [Fs.openFile, hplain, hres, h.dir.flat p, hf, OpenFlags.access, OpenMode.access]
    -- the new descriptor is above all those in the cache
    have hfd : ∀ path, cachedFd w path ≠ some w.fs.nextFd := by
      intro path hc
      obtain ⟨f, hopen⟩ := Option.isSome_iff_exists.1 (h.cache path _ hc)
      exact absurd (h.fs.fd _ f hopen).1 (Nat.lt_irrefl _)
    have hnew := LocalStep.newFile h hp.name hf .wronly
    have htouch : (localMap d w).touch p = (localMap d w).set p (some []) := if_pos hnone
    simp only [hopen, FileMap.createFile, hnone]
    by_cases h0 : 0 < n
    · have hset := hnew.trans (LocalStep.setInode hnew.ok hp.name (Fs.newFile_self w.fs (d ++ [p])) (List.replicate n 0))
      rw [hnew.map, FileMap.touch_set] at hset
      have hclose := hset.trans (LocalStep.close hset.ok hfd)
      rw [hset.map] at hclose
      have htrunc : ((w.fs.newFile (d ++ [p])).newFd w.fs.nextIno .wronly).ftruncate w.fs.nextFd n =
          .ok (((w.fs.newFile (d ++ [p])).newFd w.fs.nextIno .wronly).setInode w.fs.nextIno (List.replicate n 0)) := by
        apply (Fs.ftruncate_open (Fs.newFd_self _ _ _) rfl hn).trans
        simp [Fs.newFd, Fs.newFile, padTo]
      rw [if_pos h0, htrunc]
      exact ⟨_, rfl, hclose⟩
    · obtain rfl : n = 0 := by omega
      have hclose := hnew.trans (LocalStep.close hnew.ok hfd)
      rw [hnew.map, htouch] at hclose
      rw [if_neg h0]
      exact ⟨_, rfl, hclose⟩

/-- Deleting a name leaves its descriptors, cached ones included, to their inode. -/
theorem localDelete_spec (h : LocalOk base d w) (hp : FlatPath base p) :
    ∃ w', localStorageDeleteFile w p = (w', ((localMap d w).deleteFile p).2) ∧ LocalOk base d w' ∧
      localMap d w' = ((localMap d w).deleteFile p).1 := by
  have hmap := localMap_eq (d := d) (w := w) hp.name
  have hres := Fs.resolve_entry h.dir.resolves h.dir.dir hp.name
  rw [localStorageDeleteFile, h.path, buildFilePath_flat hp]
  cases hf : w.fs.files (d ++ [p]) with
  | none =>
    have hnone : localMap d w p = none := by rw [hmap, contentAt_eq_none, hf]
    simp only [Fs.unlink, hres, h.dir.flat p, hf, FileMap.deleteFile, hnone]
    exact ⟨w, rfl, h, rfl⟩
  | some ino =>
    have hsome : localMap d w p = some (w.fs.inodes ino) := by rw [hmap, Fs.contentAt, hf]; rfl
    simp only [Fs.unlink, hres, h.dir.flat p, hf, FileMap.deleteFile, hsome]
    refine ⟨_, rfl, ⟨h.path, h.dir.congr rfl rfl, h.fs.unlink (d ++ [p]), h.cache⟩, ?_⟩
    funext q
    simp only [localMap, FileMap.set, LocalWorld.withFs, Fs.contentAt]
    by_cases hq : q = p <;> simp [hq]

theorem localInfo_spec (h : LocalOk base d w) (hp : FlatPath base p) :
    localStorageGetFileInfo w p = (localMap d w).getFileInfo p := by
  have hmap := localMap_eq (d := d) (w := w) hp.name
  have hres := Fs.resolve_entry h.dir.resolves h.dir.dir hp.name
  rw [localStorageGetFileInfo, h.path, buildFilePath_flat hp, FileMap.getFileInfo, hmap]
  cases hf : w.fs.files (d ++ [p]) <;> simp [Fs.stat, hres, h.dir.flat p, Fs.contentAt, hf]

end

/-! ## Initialisation -/

/-- The base path leads to a directory, with no directories in it. -/
structure BaseAt (d : Place) (w : LocalWorld) : Prop where
  resolves : w.fs.resolve w.priv.basePath = .ok d
  dir : w.fs.isDir d = true
  flat : ∀ name, w.fs.isDir (d ++ [name]) = false

theorem makeDirectories_ok {fs : Fs} (h : fs.Ok) (paths : List CString) : (makeDirectories fs paths).1.Ok := by
  induction paths generalizing fs with
  | nil => exact h
  | cons path paths ih =>
    unfold makeDirectories
    split
    · rename_i hm
      exact ih (h.mkdir hm)
    · exact ih h
    · exact h

theorem createDirectories_ok {fs fs' : Fs} {path : CString} {ret : XdeviceError} (h : fs.Ok)
    (hc : createDirectories fs path = some (fs', ret)) : fs'.Ok ∧ path ≠ [] ∧ (ret = .ok → path ≠ [slash]) := by
  unfold createDirectories at hc
  dsimp only at hc
  split at hc
  · cases hc
  · rename_i hne
    have hpaths : (makeDirectories fs _).1 = fs' := congrArg Prod.fst (Option.some.inj hc)
    refine ⟨hpaths ▸ makeDirectories_ok h _, ?_, ?_⟩
    · rintro rfl
      exact hne rfl
    · rintro rfl rfl
      -- the slash is taken off, and the empty path is no directory
      have : (makeDirectories fs [[]]).2 = .ok := congrArg Prod.snd (Option.some.inj hc)
      exact absurd this nofun

/-- A new backend is in good order, with nothing in its cache. -/
theorem localStorageInit_spec {fs fs' : Fs} {config : Option CString} {priv : LocalStoragePrivate} (hfs : fs.Ok)
    (hinit : localStorageInit fs config = some (fs', .ok priv)) (hb : BaseAt d ⟨fs', priv⟩) :
    LocalOk priv.basePath d ⟨fs', priv⟩ ∧ ∀ path, cachedFd ⟨fs', priv⟩ path = none := by
  obtain ⟨⟨fs1, ret⟩, hc, hr⟩ := Option.map_eq_some_iff.1 hinit
  dsimp only at hr
  split at hr
  · cases hr
  · rename_i hret
    cases hr
    obtain ⟨hok, hne, hroot⟩ := createDirectories_ok hfs hc
    refine ⟨⟨rfl, ⟨hne, hroot (not_not.1 hret), hb.resolves, hb.dir, hb.flat⟩, hok, fun path fd h => ?_⟩, fun _ => rfl⟩
    cases h

end

/-- A disk with nothing on it but its root. -/
def emptyDisk : Fs where
  cwd := []
  isDir q := q = []
  files _ := none
  inodes _ := []
  fds _ := none
  nextIno := 0
  nextFd := 3

/-- What a backend with no configuration makes of it. -/
def freshLocal : LocalWorld where
  fs :=
    { emptyDisk with
      isDir := fun q =>
        if q = [cstr "tmp", cstr "xdevice"] then true else if q = [cstr "tmp"] then true else emptyDisk.isDir q }
  priv := ⟨cstr "/tmp/xdevice", 100, [], .zero⟩

theorem emptyDisk_ok : emptyDisk.Ok := ⟨nofun, nofun, nofun⟩

theorem freshLocal_init : localStorageInit emptyDisk none = some (freshLocal.fs, .ok freshLocal.priv) := rfl

theorem freshLocal_base : BaseAt [cstr "tmp", cstr "xdevice"] freshLocal where
  resolves := rfl
  dir := by decide
  flat name := by simp [freshLocal, emptyDisk]

end XDevice
