import XDevice.Storage.DeletedFiles
import Mathlib.Data.Set.Card
/-!
# Descriptors that nobody closes

A descriptor is opened for a call and put into the cache, where the cleanup finds it. When
the cache is full it is opened all the same and kept nowhere: neither the call nor the
cleanup closes it.
-/
open Lib Lib.Posix

namespace XDevice

/-! ## What is accounted for -/

/-- `local_storage_cleanup`: it closes the cached descriptors. The locks and the memory it
releases are not modelled. -/
def localStorageCleanup (w : LocalWorld) : Fs := w.priv.fdCache.foldl (fun fs e => fs.close e.fd) w.fs

/-- The open descriptors from `first` on: those of a backend that was initialised when
`first` was the next one. -/
def openSince (first : Nat) (fs : Fs) : Set Nat := {fd | first ≤ fd ∧ (fs.fds fd).isSome = true}

/-- Every descriptor of the backend that is open is in the cache, there are no more than it
may have, and none is left after the cleanup. -/
structure Accounted (first : Nat) (w : LocalWorld) : Prop where
  recorded : ∀ fd ∈ openSince first w.fs, ∃ e ∈ w.priv.fdCache, e.fd = fd
  atMost : (openSince first w.fs).encard ≤ w.priv.maxOpenFiles
  cleaned : openSince first (localStorageCleanup w) = ∅

/-- What a call asks for a descriptor: the file system it is opened in, and the flags. -/
def asksFor (w : LocalWorld) : StorageOp → Option (Fs × OpenFlags)
  | .readSync _ _ n => if n = 0 then none else some (w.fs, ⟨.rdonly, false, false⟩)
  | .writeSync p _ d =>
    if d.length = 0 then none else (createParents w.fs (fullPath w p)).map fun fs => (fs, ⟨.wronly, true, false⟩)
  | .fsync _ => some (w.fs, ⟨.wronly, false, false⟩)
  | _ => none

/-- A call that opens a descriptor finds room for it in the cache. -/
def CacheTakes (w : LocalWorld) (a : CallEnv × StorageOp) : Prop :=
  ∀ r ∈ asksFor w a.2, cachedFd w (fullPath w a.2.path) = none →
    (r.1.openFile (fullPath w a.2.path) r.2).isOk = true → w.priv.fdCache.length < w.priv.maxOpenFiles

instance (w : LocalWorld) (a : CallEnv × StorageOp) : Decidable (CacheTakes w a) :=
  inferInstanceAs (Decidable (∀ r ∈ asksFor w a.2, cachedFd w (fullPath w a.2.path) = none →
    (r.1.openFile (fullPath w a.2.path) r.2).isOk = true → w.priv.fdCache.length < w.priv.maxOpenFiles))

/-! ## The cache -/

section
variable {first : Nat} {w w' : LocalWorld}

/-- What is known of any state: the next descriptor is new to the file system and the cache,
and the cache is within its size. -/
structure Ledger (first : Nat) (w : LocalWorld) : Prop where
  started : first ≤ w.fs.nextFd
  fresh : ∀ fd, (w.fs.fds fd).isSome = true → fd < w.fs.nextFd
  cached : ∀ e ∈ w.priv.fdCache, e.fd < w.fs.nextFd
  size : w.priv.fdCache.length ≤ w.priv.maxOpenFiles

theorem cleanup_fds (cache : List FdCacheEntry) (fs : Fs) (fd : Nat) :
    (cache.foldl (fun fs e => fs.close e.fd) fs).fds fd = if ∃ e ∈ cache, e.fd = fd then none else fs.fds fd := by
  induction cache generalizing fs with
  | nil => simp
  | cons e cache ih =>
    rw [List.foldl_cons, ih]
    by_cases he : e.fd = fd
    · simp [he, Fs.close]
    · simp [he, Fs.close, Ne.symm he]

/-- It is enough that the open descriptors are in the cache. -/
theorem Ledger.accounted (h : Ledger first w) (hrecorded : ∀ fd ∈ openSince first w.fs, ∃ e ∈ w.priv.fdCache, e.fd = fd) :
    Accounted first w where
  recorded := hrecorded
  atMost := by
    have hsub : openSince first w.fs ⊆ (w.priv.fdCache.map FdCacheEntry.fd).toFinset := by
      intro fd hfd
      obtain ⟨e, he, rfl⟩ := hrecorded fd hfd
      simpa using ⟨e, he, rfl⟩
    have hcard : (w.priv.fdCache.map FdCacheEntry.fd).toFinset.card ≤ w.priv.maxOpenFiles := by
      have hle := List.toFinset_card_le (w.priv.fdCache.map FdCacheEntry.fd)
      rw [List.length_map] at hle
      exact Nat.le_trans hle h.size
    apply (Set.encard_le_encard hsub).trans
    rw [Set.encard_coe_eq_coe_finsetCard]
    exact_mod_cast hcard
  cleaned := by
    rw [Set.eq_empty_iff_forall_notMem]
    rintro fd ⟨hfirst, hopen⟩
    rw [localStorageCleanup, cleanup_fds] at hopen
    split at hopen
    · cases hopen
    · rename_i hnot
      exact hnot (hrecorded fd ⟨hfirst, hopen⟩)

/-- The same descriptors are open and in the cache. -/
structure SameLedger (w w' : LocalWorld) : Prop where
  isOpen : Fs.SameOpen w.fs w'.fs
  cache : w'.priv.fdCache.map FdCacheEntry.fd = w.priv.fdCache.map FdCacheEntry.fd
  maxOpenFiles : w'.priv.maxOpenFiles = w.priv.maxOpenFiles

theorem SameLedger.refl (w : LocalWorld) : SameLedger w w := ⟨.refl _, rfl, rfl⟩

theorem SameLedger.withFs {fs : Fs} (h : Fs.SameOpen w.fs fs) : SameLedger w (w.withFs fs) := ⟨h, rfl, rfl⟩

theorem SameLedger.trans {w'' : LocalWorld} (h : SameLedger w w') (h' : SameLedger w' w'') : SameLedger w w'' :=
  ⟨h.isOpen.trans h'.isOpen, h'.cache.trans h.cache, h'.maxOpenFiles.trans h.maxOpenFiles⟩

theorem SameLedger.mem_cache (h : SameLedger w w') (fd : Nat) :
    (∃ e ∈ w'.priv.fdCache, e.fd = fd) ↔ ∃ e ∈ w.priv.fdCache, e.fd = fd := by
  have hmem : fd ∈ w'.priv.fdCache.map FdCacheEntry.fd ↔ fd ∈ w.priv.fdCache.map FdCacheEntry.fd := by rw [h.cache]
  simpa only [List.mem_map] using hmem

theorem SameLedger.openSince (h : SameLedger w w') : openSince first w'.fs = openSince first w.fs := by
  ext fd
  simp only [XDevice.openSince, Set.mem_ofPred_eq, h.isOpen.isOpen fd]

theorem SameLedger.ledger (h : SameLedger w w') (hw : Ledger first w) : Ledger first w' where
  started := Nat.le_trans hw.started h.isOpen.nextFd
  fresh fd hfd := Nat.lt_of_lt_of_le (hw.fresh fd ((h.isOpen.isOpen fd).symm.trans hfd)) h.isOpen.nextFd
  cached e he := by
    obtain ⟨e', he', hfd⟩ := (h.mem_cache e.fd).1 ⟨e, he, rfl⟩
    rw [← hfd]
    exact Nat.lt_of_lt_of_le (hw.cached e' he') h.isOpen.nextFd
  size := by
    have hlen := congrArg List.length h.cache
    rw [List.length_map, List.length_map] at hlen
    rw [hlen, h.maxOpenFiles]
    exact hw.size

end

/-! ## A descriptor for a call -/

section
variable {first : Nat} {w w' : LocalWorld} {env : CallEnv} {path : CString} {flags : OpenFlags} {r : Option Nat}

/-- The cached descriptor, or none because the path cannot be opened, or a new one that is
cached if there is room. -/
theorem getFileDescriptor_returns (h : getFileDescriptor env w path flags = some (w', r)) :
    SameLedger w w' ∧ (cachedFd w path = none → (w.fs.openFile path flags).isOk = false) ∨
    ∃ fs fd cache, cachedFd w path = none ∧ w.fs.openFile path flags = .ok (fs, fd) ∧ r = some fd ∧
      w' = (w.withFs fs).withCache cache ∧
      (w.priv.fdCache.length < w.priv.maxOpenFiles ∧ path.length < maxPathLen - 1 ∧
          cache = w.priv.fdCache ++ [⟨path, fd, env.now⟩] ∨
        w.priv.maxOpenFiles ≤ w.priv.fdCache.length ∧ cache = w.priv.fdCache) := by
  cases hc : cachedFd w path with
  | some fd =>
    obtain ⟨i, e, hi, hget, -, rfl⟩ := cached_entry hc
    simp only [getFileDescriptor, hi, Option.bind_some, hget, Option.map_some] at h
    cases h
    refine .inl ⟨⟨.refl _, ?_, rfl⟩, fun hnone => by cases hnone⟩
    have hsame : (w.priv.fdCache.map FdCacheEntry.fd)[i]? = some e.fd := by rw [List.getElem?_map, hget, Option.map_some]
    obtain ⟨hlt, hfd⟩ := List.getElem?_eq_some_iff.1 hsame
    simp only [LocalWorld.withCache, List.map_set]
    rw [← hfd, List.set_getElem_self]
  | none =>
    cases hopen : w.fs.openFile path flags with
    | error e =>
      rw [getFileDescriptor_failed hc hopen] at h
      cases h
      exact .inl ⟨⟨.refl _, rfl, rfl⟩, fun _ => rfl⟩
    | ok opened =>
      obtain ⟨fs, fd⟩ := opened
      rw [getFileDescriptor_opens env hc hopen] at h
      split at h
      · rename_i hroom
        split at h
        · cases h
        · rename_i hshort
          cases h
          exact .inr ⟨fs, fd, _, rfl, rfl, rfl, rfl, .inl ⟨hroom, Nat.not_le.1 hshort, rfl⟩⟩
      · rename_i hfull
        cases h
        exact .inr ⟨fs, fd, w.priv.fdCache, rfl, rfl, rfl, rfl, .inr ⟨Nat.not_lt.1 hfull, rfl⟩⟩

/-- With room in the cache what is opened is recorded. -/
theorem getFileDescriptor_recorded (hw : Ledger first w)
    (hrecorded : ∀ fd ∈ openSince first w.fs, ∃ e ∈ w.priv.fdCache, e.fd = fd)
    (hroom : cachedFd w path = none → (w.fs.openFile path flags).isOk = true →
      w.priv.fdCache.length < w.priv.maxOpenFiles)
    (h : getFileDescriptor env w path flags = some (w', r)) :
    Ledger first w' ∧ ∀ fd ∈ openSince first w'.fs, ∃ e ∈ w'.priv.fdCache, e.fd = fd := by
  rcases getFileDescriptor_returns h with ⟨hsame, -⟩ | ⟨fs, fd, cache, hc, hopen, -, rfl, hcache⟩
  · refine ⟨hsame.ledger hw, fun fd hfd => (hsame.mem_cache fd).2 (hrecorded fd ?_)⟩
    rwa [hsame.openSince] at hfd
  · obtain ⟨rfl, hnext, hself, hother⟩ := Fs.openFile_opens hopen
    have hlt := hroom hc (by rw [hopen]; rfl)
    rcases hcache with ⟨-, -, rfl⟩ | ⟨hfull, -⟩
    · refine ⟨⟨?_, fun fd hfd => ?_, fun e he => ?_, ?_⟩, ?_⟩
      · exact Nat.le_trans hw.started (Nat.le_trans (Nat.le_succ _) (Nat.le_of_eq hnext.symm))
      · by_cases hnew : fd = w.fs.nextFd
        · rw [hnew]
          exact Nat.lt_of_lt_of_eq (Nat.lt_succ_self _) hnext.symm
        · have hold : (w.fs.fds fd).isSome = true := hother fd hnew ▸ hfd
          exact Nat.lt_trans (hw.fresh fd hold) (Nat.lt_of_lt_of_eq (Nat.lt_succ_self _) hnext.symm)
      · have hstep : w.fs.nextFd < fs.nextFd := Nat.lt_of_lt_of_eq (Nat.lt_succ_self _) hnext.symm
        rcases List.mem_append.1 he with he | he
        · exact Nat.lt_trans (hw.cached e he) hstep
        · rw [List.mem_singleton.1 he]
          exact hstep
      · rw [show ((w.withFs fs).withCache (w.priv.fdCache ++ [⟨path, _, env.now⟩])).priv.fdCache.length = _ from
          List.length_append]
        exact hlt
      · rintro fd ⟨hfirst, hfd⟩
        by_cases hnew : fd = w.fs.nextFd
        · exact ⟨_, List.mem_append_right _ (List.mem_singleton.2 rfl), hnew.symm⟩
        · have hold : (w.fs.fds fd).isSome = true := hother fd hnew ▸ hfd
          obtain ⟨e, he, hfd⟩ := hrecorded fd ⟨hfirst, hold⟩
          exact ⟨e, List.mem_append_left _ he, hfd⟩
    · exact absurd hlt (Nat.not_lt.2 hfull)

/-- With none, it is not. -/
theorem getFileDescriptor_unrecorded (hw : Ledger first w) (hc : cachedFd w path = none)
    (hopen : (w.fs.openFile path flags).isOk = true) (hfull : w.priv.maxOpenFiles ≤ w.priv.fdCache.length) :
    ∃ w' fd, getFileDescriptor env w path flags = some (w', some fd) ∧ fd ∈ openSince first w'.fs ∧
      ¬ ∃ e ∈ w'.priv.fdCache, e.fd = fd := by
  cases hopened : w.fs.openFile path flags with
  | error e =>
    rw [hopened] at hopen
    cases hopen
  | ok opened =>
    obtain ⟨fs, fd⟩ := opened
    obtain ⟨rfl, -, hself, -⟩ := Fs.openFile_opens hopened
    refine ⟨w.withFs fs, w.fs.nextFd, ?_, ⟨hw.started, hself⟩, ?_⟩
    · rw [getFileDescriptor_opens env hc hopened, if_neg (Nat.not_lt.2 hfull)]
    · rintro ⟨e, he, hfd⟩
      exact Nat.lt_irrefl _ (hfd ▸ hw.cached e he)

end

/-! ## Calls -/

section
variable {first : Nat} {w w' : LocalWorld} {env : CallEnv} {op : StorageOp} {reply : StorageReply}

theorem seekTo_sameOpen {fs fs' : Fs} {fd offset : Nat} (h : seekTo fs fd offset = some fs') : Fs.SameOpen fs fs' := by
  unfold seekTo Fs.lseek at h
  cases hf : fs.fds fd with
  | none =>
    rw [hf] at h
    dsimp only at h
    split at h
    · cases h
      exact .refl _
    · cases h
  | some f =>
    rw [hf] at h
    dsimp only at h
    by_cases hlt : offset < 2 ^ 63
    · rw [if_pos hlt] at h
      cases h
      exact .setOffset hf _
    · rw [if_neg hlt] at h
      dsimp only at h
      split at h
      · cases h
        exact .refl _
      · cases h

theorem createParents_sameOpen {fs fs' : Fs} {path : CString} (h : createParents fs path = some fs') : Fs.SameOpen fs fs' := by
  obtain ⟨isDir, rfl⟩ := createParents_dirs h
  exact ⟨fun _ => rfl, Nat.le_refl _⟩

/-- A call that asks for a descriptor opens and closes no other. -/
theorem localExec_asks {fs : Fs} {flags : OpenFlags} (env : CallEnv) (hasks : asksFor w op = some (fs, flags)) :
    Fs.SameOpen w.fs fs ∧ ∃ rest : LocalWorld × Option Nat → LocalWorld × StorageReply,
      localExec env w op = (getFileDescriptor env (w.withFs fs) (fullPath w op.path) flags).map rest ∧
        ∀ r, SameLedger r.1 (rest r).1 := by
  cases op with
  | readSync p off n =>
    by_cases hn : n = 0
    · rw [asksFor, if_pos hn] at hasks
      cases hasks
    · rw [asksFor, if_neg hn] at hasks
      cases hasks
      refine ⟨.refl _, _, if_neg hn, fun ⟨w1, r⟩ => ?_⟩
      cases r with
      | none => exact .refl w1
      | some fd =>
        dsimp only
        cases hseek : seekTo w1.fs fd off with
        | none => exact .refl w1
        | some fs1 =>
          have hsame := seekTo_sameOpen hseek
          dsimp only
          cases hread : fs1.read fd n with
          | error e =>
            dsimp only
            split
            · exact ⟨hsame, rfl, rfl⟩
            · exact .withFs hsame
          | ok result =>
            obtain ⟨fs2, bytes⟩ := result
            have hsame := hsame.trans (.of_read hread)
            dsimp only
            split
            · exact .withFs hsame
            · exact ⟨hsame, rfl, rfl⟩
  | writeSync p off d =>
    by_cases hd : d.length = 0
    · rw [asksFor, if_pos hd] at hasks
      cases hasks
    · rw [asksFor, if_neg hd] at hasks
      obtain ⟨fs', hparents, he⟩ := Option.map_eq_some_iff.1 hasks
      cases he
      have hparents : createParents w.fs (buildFilePath w.priv.basePath p maxPathLen) = some fs := hparents
      refine ⟨createParents_sameOpen hparents, ?_⟩
      unfold localExec localStorageWriteSync
      dsimp only
      rw [if_neg hd, hparents, Option.bind_some]
      refine ⟨_, rfl, fun ⟨w1, r⟩ => ?_⟩
      cases r with
      | none => exact .refl w1
      | some fd =>
        dsimp only
        cases hseek : seekTo w1.fs fd off with
        | none => exact .refl w1
        | some fs1 =>
          have hsame := seekTo_sameOpen hseek
          dsimp only
          cases hwrite : fs1.write fd d with
          | error e =>
            dsimp only
            split
            · exact ⟨hsame, rfl, rfl⟩
            · exact .withFs hsame
          | ok fs2 => exact ⟨hsame.trans (.of_write hwrite), rfl, rfl⟩
  | fsync p =>
    cases hasks
    refine ⟨.refl _, _, rfl, fun ⟨w1, r⟩ => ?_⟩
    cases r with
    | none => exact .refl w1
    | some fd =>
      dsimp only
      cases w1.fs.fsync fd with
      | error e => exact .refl w1
      | ok => exact .refl w1
  | createFile | deleteFile | getFileInfo => cases hasks

/-- The other calls leave none open. -/
theorem localExec_asks_none (hfresh : ∀ fd, (w.fs.fds fd).isSome = true → fd < w.fs.nextFd) (hasks : asksFor w op = none)
    (h : localExec env w op = some (w', reply)) : SameLedger w w' := by
  cases op with
  | readSync p off n =>
    by_cases hn : n = 0
    · rw [show localExec env w (.readSync p off n) = some (w, .ofCode .invalidParam) from if_pos hn] at h
      cases h
      exact .refl w
    · rw [asksFor, if_neg hn] at hasks
      cases hasks
  | writeSync p off d =>
    by_cases hd : d.length = 0
    · rw [show localExec env w (.writeSync p off d) = some (w, .ofCode .invalidParam) from if_pos hd] at h
      cases h
      exact .refl w
    · rw [asksFor, if_neg hd, Option.map_eq_none_iff] at hasks
      have hasks : createParents w.fs (buildFilePath w.priv.basePath p maxPathLen) = none := hasks
      unfold localExec localStorageWriteSync at h
      dsimp only at h
      rw [if_neg hd, hasks, Option.bind_none] at h
      cases h
  | fsync p => cases hasks
  | createFile p n =>
    obtain ⟨fs1, hparents, hcall⟩ := Option.map_eq_some_iff.1 h
    have hmade := createParents_sameOpen hparents
    split at hcall
    · cases hcall
      exact .withFs hmade
    · rename_i fs2 fd hopen
      obtain ⟨rfl, hnext, -, hother⟩ := Fs.openFile_opens hopen
      -- the new descriptor was not open before, and is closed again
      have hclosed : ∀ fs3, Fs.SameOpen fs2 fs3 → Fs.SameOpen w.fs (fs3.close fs1.nextFd) := by
        intro fs3 hsame
        refine hmade.trans (.close (fun fd hne => ?_) ?_ ?_)
        · rw [hsame.isOpen, hother fd hne]
        · rw [← Option.not_isSome_iff_eq_none, hmade.isOpen]
          exact fun hlt => absurd (hfresh _ hlt) (Nat.not_lt.2 hmade.nextFd)
        · exact Nat.le_trans (Nat.le_trans (Nat.le_succ _) (Nat.le_of_eq hnext.symm)) hsame.nextFd
      split at hcall
      · split at hcall
        · rename_i fs3 htrunc
          cases hcall
          exact .withFs (hclosed fs3 (.of_ftruncate htrunc))
        · dsimp only at hcall
          split at hcall
          · rename_i fs3 hunlink
            cases hcall
            exact .withFs ((hclosed fs2 (.refl _)).trans (.of_unlink hunlink))
          · cases hcall
            exact .withFs (hclosed fs2 (.refl _))
      · cases hcall
        exact .withFs (hclosed fs2 (.refl _))
  | deleteFile p =>
    have hcall : localStorageDeleteFile w p = (w', reply) := Option.some.inj h
    unfold localStorageDeleteFile at hcall
    split at hcall
    · rename_i fs hunlink
      cases hcall
      exact .withFs (.of_unlink hunlink)
    · cases hcall
      exact .refl w
  | getFileInfo p =>
    cases h
    exact .refl w

end

/-! ## Main theorem -/

section
variable {first : Nat} {w w' : LocalWorld} {a : CallEnv × StorageOp} {reply : StorageReply}

theorem accounted_keep (hw : Ledger first w) (hacc : Accounted first w) (ha : CacheTakes w a)
    (h : localMachine.step w a = some (w', reply)) : Ledger first w' ∧ Accounted first w' := by
  have h : localExec a.1 w a.2 = some (w', reply) := h
  suffices hnext : Ledger first w' ∧ ∀ fd ∈ openSince first w'.fs, ∃ e ∈ w'.priv.fdCache, e.fd = fd from
    ⟨hnext.1, hnext.1.accounted hnext.2⟩
  have hsame : ∀ {w1}, SameLedger w1 w' → Ledger first w1 →
      (∀ fd ∈ openSince first w1.fs, ∃ e ∈ w1.priv.fdCache, e.fd = fd) →
        Ledger first w' ∧ ∀ fd ∈ openSince first w'.fs, ∃ e ∈ w'.priv.fdCache, e.fd = fd := by
    intro w1 hsame hw1 hrecorded
    refine ⟨hsame.ledger hw1, fun fd hfd => (hsame.mem_cache fd).2 (hrecorded fd ?_)⟩
    rwa [hsame.openSince] at hfd
  cases hasks : asksFor w a.2 with
  | none => exact hsame (localExec_asks_none hw.fresh hasks h) hw hacc.recorded
  | some r =>
    obtain ⟨fs, flags⟩ := r
    obtain ⟨hopen, rest, hexec, hrest⟩ := localExec_asks a.1 hasks
    rw [hexec] at h
    obtain ⟨⟨w1, fd⟩, hget, he⟩ := Option.map_eq_some_iff.1 h
    have hw' : (rest (w1, fd)).1 = w' := congrArg Prod.fst he
    have hmade : SameLedger w (w.withFs fs) := .withFs hopen
    have hrecorded : ∀ fd ∈ openSince first (w.withFs fs).fs, ∃ e ∈ (w.withFs fs).priv.fdCache, e.fd = fd := by
      rw [hmade.openSince]
      exact hacc.recorded
    obtain ⟨hw1, hrecorded⟩ := getFileDescriptor_recorded (hmade.ledger hw) hrecorded (ha (fs, flags) hasks) hget
    exact hsame (hw' ▸ hrest (w1, fd)) hw1 hrecorded

theorem accounted_break (hw : Ledger first w) (ha : ¬ CacheTakes w a) :
    ∃ w' reply, localMachine.step w a = some (w', reply) ∧ ¬ Accounted first w' := by
  unfold CacheTakes at ha
  push Not at ha
  obtain ⟨⟨fs, flags⟩, hasks, hc, hopened, hfull⟩ := ha
  obtain ⟨hopen, rest, hexec, hrest⟩ := localExec_asks a.1 hasks
  have hmade : SameLedger w (w.withFs fs) := .withFs hopen
  obtain ⟨w1, fd, hget, hfd, hnot⟩ := getFileDescriptor_unrecorded (hmade.ledger hw) hc hopened hfull
  have hsame := hrest (w1, some fd)
  refine ⟨(rest (w1, some fd)).1, (rest (w1, some fd)).2, ?_, fun hacc => hnot ?_⟩
  · exact hexec.trans (by rw [hget]; rfl)
  · apply (hsame.mem_cache fd).1
    apply hacc.recorded
    rw [hsame.openSince]
    exact hfd

theorem createDirectories_dirs {fs fs' : Fs} {path : CString} {ret : XdeviceError}
    (h : createDirectories fs path = some (fs', ret)) : ∃ isDir, fs' = { fs with isDir := isDir } := by
  unfold createDirectories at h
  dsimp only at h
  split at h
  · cases h
  · have hmade := congrArg Prod.fst (Option.some.inj h)
    dsimp only at hmade
    rw [← hmade]
    exact makeDirectories_dirs ..

/-- The cache of a new backend is empty, and making its directory opens nothing. -/
theorem ledger_init {fs fs' : Fs} {config : Option CString} {priv : LocalStoragePrivate}
    (hfds : ∀ fd, (fs.fds fd).isSome = true → fd < fs.nextFd) (hinit : localStorageInit fs config = some (fs', .ok priv)) :
    Ledger fs.nextFd ⟨fs', priv⟩ ∧ Accounted fs.nextFd ⟨fs', priv⟩ := by
  obtain ⟨⟨fs1, ret⟩, hmade, he⟩ := Option.map_eq_some_iff.1 hinit
  obtain ⟨isDir, rfl⟩ := createDirectories_dirs hmade
  dsimp only at he
  split at he
  · cases he
  · cases he
    have hw : ∀ base, Ledger fs.nextFd ⟨{ fs with isDir := isDir }, ⟨base, 100, [], .zero⟩⟩ :=
      fun _ => ⟨Nat.le_refl _, hfds, fun e he => absurd he List.not_mem_nil, Nat.zero_le _⟩
    refine ⟨hw _, (hw _).accounted fun fd hfd => ?_⟩
    exact absurd (hfds fd hfd.2) (Nat.not_lt.2 hfd.1)

end

/-- In every state of a run of a new Local backend the open descriptors are accounted for,
just when every call that opens one finds room for it in the cache. -/
theorem descriptors_accounted_iff {fs fs' : Fs} {config : Option CString} {priv : LocalStoragePrivate}
    (hfds : ∀ fd, (fs.fds fd).isSome = true → fd < fs.nextFd) (hinit : localStorageInit fs config = some (fs', .ok priv))
    (calls : List (CallEnv × StorageOp)) :
    localMachine.Always (Accounted fs.nextFd) ⟨fs', priv⟩ calls ↔ localMachine.Along CacheTakes ⟨fs', priv⟩ calls := by
  obtain ⟨hw, hacc⟩ := ledger_init hfds hinit
  exact Machine.always_iff_along (A := fun _ => True) (fun w a w' reply hw hacc _ ha h => accounted_keep hw hacc ha h)
    (fun w a hw _ _ ha => accounted_break hw ha) hw hacc fun _ _ => trivial

/-- A file is written, read and deleted. -/
theorem few_descriptors_accounted :
    localMachine.Always (Accounted 3) freshLocal
      [(.calm, .writeSync (cstr "a") 0 [1, 2]), (.calm, .readSync (cstr "a") 0 2), (.calm, .deleteFile (cstr "a"))] := by
  have hfds : ∀ fd, (emptyDisk.fds fd).isSome = true → fd < emptyDisk.nextFd := fun fd hfd => by cases hfd
  exact (descriptors_accounted_iff hfds freshLocal_init _).2 (by decide +kernel)

/-- A disk with a file "b" for every byte b in the directory "/d". -/
def fullDisk : Fs where
  cwd := []
  isDir q := q = [] ∨ q = [cstr "d"]
  files q :=
    match q with
    | [_, [b]] => some b.toNat
    | _ => none
  inodes _ := []
  fds _ := none
  nextIno := 256
  nextFd := 3

/-- A sync of each of 101 files. -/
def manySyncs : List (CallEnv × StorageOp) := (List.range 101).map fun i => (.calm, .fsync [UInt8.ofNat (128 + i)])

/-- A backend on that directory. -/
def fullLocal : LocalWorld := ⟨fullDisk, ⟨cstr "/d", 100, [], .zero⟩⟩

/-- The last descriptor is open, in no entry of the cache, and still open after the cleanup. -/
theorem last_descriptor_lost :
    localStorageInit fullDisk (some (cstr "/d")) = some (fullDisk, .ok fullLocal.priv) ∧
    ((localMachine.run fullLocal manySyncs).map fun r => (r.1.priv.fdCache.map FdCacheEntry.fd, (r.1.fs.fds 103).isSome,
      ((localStorageCleanup r.1).fds 103).isSome)) = some (List.range' 3 100, true, true) ∧
    ¬ localMachine.Always (Accounted fullDisk.nextFd) fullLocal manySyncs := by
  have hrun : ((localMachine.run fullLocal manySyncs).map fun r => (r.1.priv.fdCache.map FdCacheEntry.fd,
      (r.1.fs.fds 103).isSome, ((localStorageCleanup r.1).fds 103).isSome)) = some (List.range' 3 100, true, true) := by
    decide +kernel
  refine ⟨rfl, hrun, fun h => ?_⟩
  obtain ⟨r, hr, he⟩ := Option.map_eq_some_iff.1 hrun
  have hcleaned := (h.last hr).cleaned
  have hleft : ((localStorageCleanup r.1).fds 103).isSome = true := (Prod.mk.inj (Prod.mk.inj he).2).2
  have hopen : 103 ∈ openSince fullDisk.nextFd (localStorageCleanup r.1) := ⟨by decide, hleft⟩
  rw [hcleaned] at hopen
  exact hopen

end XDevice
