import XDevice.Storage.DeletedFiles
import XDevice.Storage.Directories
import XDevice.Lib.Outside
/-!
# The base directory is all a backend changes

Nothing in `local_storage.c` looks for `..` in a path, and a path that starts with a slash
is taken as it is. A relative path without `..` stays below the base directory all the
same, and so do the directories made above its file.
-/
open Lib Lib.Posix

namespace XDevice

/-- A relative path without `..` that fits the buffer behind the base path. -/
structure Inside (base p : CString) : Prop where
  relative : p.head? ≠ some slash
  noUp : [dot, dot] ∉ p.splitOn slash
  fits : base.length + 1 + p.length < maxPathLen - 1

instance (base p : CString) : Decidable (Inside base p) :=
  decidable_of_iff (p.head? ≠ some slash ∧ [dot, dot] ∉ p.splitOn slash ∧ base.length + 1 + p.length < maxPathLen - 1)
    ⟨fun ⟨h1, h2, h3⟩ => ⟨h1, h2, h3⟩, fun ⟨h1, h2, h3⟩ => ⟨h1, h2, h3⟩⟩

/-! ## The directories above a file -/

theorem mem_prefixesFrom {t s : CString} {k : Nat} (h : s ∈ prefixesFrom t k) : ∃ rest, t = s ++ slash :: rest := by
  obtain ⟨i, hi, rfl⟩ := List.mem_map.1 h
  have hslash : t[i]? = some slash := by simpa using (List.mem_filter.1 hi).2
  obtain ⟨hlt, hget⟩ := List.getElem?_eq_some_iff.1 hslash
  refine ⟨t.drop (i + 1), ?_⟩
  rw [← hget, ← List.drop_eq_getElem_cons hlt, List.take_append_drop]

theorem mem_directoryPrefixes {t s : CString} (h : s ∈ directoryPrefixes t) : s = t ∨ ∃ rest, t = s ++ slash :: rest := by
  rw [directoryPrefixes_eq] at h
  rcases List.mem_append.1 h with hmem | hmem
  · exact .inr (mem_prefixesFrom hmem)
  · exact .inl (List.mem_singleton.1 hmem)

theorem beforeLastSlash_spec {path dir : CString} (h : beforeLastSlash path = some dir) :
    ∃ name, path = dir ++ slash :: name := by
  unfold beforeLastSlash at h
  split at h
  · rename_i hmem
    obtain ⟨as, bs, hrev, has⟩ := List.eq_append_cons_of_mem (List.mem_reverse.2 hmem)
    have hall : ∀ c ∈ as, decide (c ≠ slash) = true := by
      intro c hc
      simpa using fun he : c = slash => has (he ▸ hc)
    rw [hrev, List.dropWhile_append_of_pos hall, List.dropWhile_cons_of_neg (by simp)] at h
    cases h
    refine ⟨as.reverse, ?_⟩
    rw [← List.reverse_reverse path, hrev, List.reverse_append, List.reverse_cons, List.append_assoc]
    rfl
  · cases h

section
variable {D F : Set Place} {fs fs' : Fs} {base p path : CString}

/-- All that is in front of a slash of the path is in `D`, or a directory already. -/
def ParentsIn (D : Set Place) (fs : Fs) (path : CString) : Prop :=
  ∀ s rest, s ≠ [] → path = s ++ slash :: rest → Fs.placeOf fs.cwd s ∈ D ∨ Fs.IsDirectory fs s

theorem makeDirectories_sameOutside {paths : List CString}
    (h : ∀ s ∈ paths, s ≠ [] → Fs.placeOf fs.cwd s ∈ D ∨ Fs.IsDirectory fs s) :
    Fs.SameOutside D F fs (makeDirectories fs paths).1 := by
  induction paths generalizing fs with
  | nil => exact .refl fs
  | cons s paths ih =>
    have hrest : ∀ s' ∈ paths, s' ≠ [] → Fs.placeOf fs.cwd s' ∈ D ∨ Fs.IsDirectory fs s' :=
      fun s' hs' => h s' (List.mem_cons_of_mem _ hs')
    rcases Fs.mkdir_cases fs s with ⟨e, hm, he⟩ | ⟨⟨q, hq⟩, ⟨hm, -⟩ | ⟨fs1, hm, hgrows, -⟩⟩
    · rw [makeDirectories_fails hm he]
      exact .refl fs
    · rw [makeDirectories_exist hm]
      exact ih hrest
    · rw [makeDirectories_made hm]
      have hne : s ≠ [] := by
        rintro rfl
        cases hq
      have hmade : Fs.SameOutside D F fs fs1 := .of_mkdir hm (h s List.mem_cons_self hne)
      refine hmade.trans (ih fun s' hs' hne' => ?_)
      rw [hgrows.cwd]
      exact (hrest s' hs' hne').imp_right hgrows.isDirectory

theorem createParents_sameOutside (h : createParents fs path = some fs') (hin : ParentsIn D fs path) :
    Fs.SameOutside D F fs fs' := by
  unfold createParents at h
  split at h
  · cases h
  rename_i hlen
  cases hdir : beforeLastSlash path with
  | none =>
    rw [hdir] at h
    cases h
    exact .refl fs
  | some dir =>
    obtain ⟨name, rfl⟩ := beforeLastSlash_spec hdir
    rw [hdir] at h
    obtain ⟨⟨fs1, ret⟩, hmade, rfl⟩ := Option.map_eq_some_iff.1 h
    have hfits : dir.length ≤ maxPathLen - 1 := by
      rw [List.length_append, Nat.not_le] at hlen
      omega
    unfold createDirectories at hmade
    dsimp only at hmade
    rw [strncpy_eq hfits] at hmade
    split at hmade
    · cases hmade
    -- the buffer holds the directory, with or without a last slash
    obtain ⟨t, rest, ht, hdirt⟩ : ∃ t rest, (if dir.getLast? = some slash then dir.dropLast else dir) = t ∧
        dir ++ slash :: name = t ++ slash :: rest := by
      split
      · rename_i hlast
        refine ⟨dir.dropLast, slash :: name, rfl, ?_⟩
        have hcat : dir.dropLast ++ [slash] = dir := List.dropLast_append_getLast? slash hlast
        rw [← hcat, List.dropLast_concat, List.append_assoc]
        rfl
      · exact ⟨dir, name, rfl, rfl⟩
    rw [ht] at hmade
    have hfs := congrArg Prod.fst (Option.some.inj hmade)
    rw [← show _ = fs1 from hfs]
    refine makeDirectories_sameOutside fun s hs hne => ?_
    rcases mem_directoryPrefixes hs with rfl | ⟨rest', rfl⟩
    · exact hin s rest hne hdirt
    · refine hin s (rest' ++ slash :: rest) hne ?_
      rw [hdirt, List.append_assoc]
      rfl

/-- The parents of a path inside are above the base directory, itself, or below it. -/
theorem Inside.parents (h : Inside base p) (hbase : base ≠ []) (hdir : Fs.IsDirectory fs base) :
    ParentsIn (Fs.below (Fs.placeOf fs.cwd base)) fs (base ++ slash :: p) := by
  intro s rest hs he
  rcases List.append_eq_append_iff.1 he with ⟨mid, rfl, hp⟩ | ⟨mid, hb, hrest⟩
  · cases mid with
    | nil =>
      rw [List.append_nil]
      exact .inr hdir
    | cons c mid =>
      obtain ⟨rfl, hname⟩ := List.cons.inj hp
      refine .inl (Fs.placeOf_mem_below hbase fun hmem => h.noUp ?_)
      rw [hname, List.append_eq, List.splitOn_append_cons_self]
      exact List.mem_append_left _ hmem
  · cases mid with
    | nil =>
      rw [List.append_nil] at hb
      exact .inr (hb ▸ hdir)
    | cons c mid =>
      obtain ⟨rfl, -⟩ := List.cons.inj hrest
      subst hb
      have habove := hdir.above
      rw [if_neg hs] at habove
      exact .inr habove

theorem buildFilePath_inside (h : Inside base p) : buildFilePath base p maxPathLen = base ++ slash :: p := by
  have hfits := h.fits
  rw [buildFilePath, if_neg h.relative, snprintf_eq]
  rw [List.length_append, List.length_cons]
  omega

end

/-! ## Calls -/

section
variable {D F : Set Place} {w w' : LocalWorld} {env : CallEnv} {p : CString} {reply : StorageReply}

theorem getFileDescriptor_sameOutside {path : CString} {flags : OpenFlags} {r : Option Nat} (h : DescriptorsOk w)
    (hpath : Fs.placeOf w.fs.cwd path ∈ F) (hget : getFileDescriptor env w path flags = some (w', r)) :
    Fs.SameOutside D F w.fs w'.fs := by
  cases hc : cachedFd w path with
  | some fd =>
    obtain ⟨cache, hget', -⟩ := getFileDescriptor_cached env hc flags
    rw [hget] at hget'
    cases hget'
    exact .refl _
  | none =>
    cases hopened : w.fs.openFile path flags with
    | error e =>
      rw [getFileDescriptor_failed hc hopened] at hget
      cases hget
      exact .refl _
    | ok opened =>
      have hopen : Fs.SameOutside D F w.fs opened.1 := .of_open h.fs hopened hpath
      rw [getFileDescriptor_opens env hc hopened] at hget
      split at hget
      · split at hget
        · cases hget
        · cases hget
          exact hopen
      · cases hget
        exact hopen

theorem localRead_sameOutside {off n : Nat} (h : DescriptorsOk w) (hp : placeAt w p ∈ F)
    (hcall : localStorageReadSync env w p off n = some (w', reply)) : Fs.SameOutside D F w.fs w'.fs := by
  by_cases hn : n = 0
  · unfold localStorageReadSync at hcall
    rw [if_pos hn] at hcall
    cases hcall
    exact .refl _
  · have hrest := hcall
    unfold localStorageReadSync at hrest
    rw [if_neg hn] at hrest
    obtain ⟨⟨w1, r⟩, hget, hrest⟩ := Option.map_eq_some_iff.1 hrest
    have hgot := getFileDescriptor_sameOutside (D := D) h hp hget
    cases r with
    | none =>
      cases hrest
      exact hgot
    | some fd =>
      obtain ⟨-, -, hsome⟩ := getFileDescriptor_cases (S := ∅) h hget
      obtain ⟨f, hf, -⟩ := hsome fd rfl
      obtain ⟨w2, reply2, hcall2, ⟨pos, stats, rfl⟩, -⟩ := localRead_through off hn hget hf
      obtain ⟨rfl, rfl⟩ := Prod.mk.inj (Option.some.inj (hcall2.symm.trans hcall))
      exact hgot.trans (.setOffset f pos)

theorem localWrite_sameOutside {off : Nat} {data : Bytes} (h : DescriptorsOk w) (hp : placeAt w p ∈ F)
    (hin : ParentsIn D w.fs (fullPath w p)) (hcall : localStorageWriteSync env w p off data = some (w', reply)) :
    Fs.SameOutside D F w.fs w'.fs := by
  by_cases hd : data.length = 0
  · unfold localStorageWriteSync at hcall
    rw [if_pos hd] at hcall
    cases hcall
    exact .refl _
  · have hrest := hcall
    unfold localStorageWriteSync at hrest
    rw [if_neg hd] at hrest
    obtain ⟨fs1, hparents, hrest⟩ := Option.bind_eq_some_iff.1 hrest
    obtain ⟨⟨w1, r⟩, hget, hrest⟩ := Option.map_eq_some_iff.1 hrest
    have hmade := createParents_sameOutside (F := F) hparents hin
    have htouch : CallTouches ∅ w (w.withFs fs1) := .withFs h (createParents_touches h.fs hparents)
    have hplace : Fs.placeOf fs1.cwd (fullPath w p) ∈ F := by
      rw [show fs1.cwd = w.fs.cwd from htouch.touches.cwd]
      exact hp
    have hgot := hmade.trans (getFileDescriptor_sameOutside htouch.ok hplace hget)
    cases r with
    | none =>
      cases hrest
      exact hgot
    | some fd =>
      obtain ⟨-, -, hsome⟩ := getFileDescriptor_cases (S := ∅) htouch.ok hget
      obtain ⟨f, hf, hhas⟩ := hsome fd rfl
      obtain ⟨w2, reply2, hcall2, -, hfailed, heffect⟩ := localWrite_through off hd hparents hget hf
      obtain ⟨rfl, rfl⟩ := Prod.mk.inj (Option.some.inj (hcall2.symm.trans hcall))
      refine hgot.trans ?_
      by_cases hwrites : ∃ start, WritesAt f off data start
      · obtain ⟨start, hwrites⟩ := hwrites
        obtain ⟨pos, stats, rfl⟩ := heffect start hwrites
        have hname : ∀ q, w1.fs.files q = some f.ino → q ∈ F := fun q hq => by
          rw [hhas.names q hq]
          exact hplace
        have hwritten : Fs.SameOutside D F w1.fs (w1.fs.setInode f.ino (writeAt 0 (w1.fs.inodes f.ino) start data)) :=
          .setInode hname _
        exact hwritten.trans (.setOffset f pos)
      · obtain ⟨pos, stats, rfl⟩ := hfailed hwrites
        exact .setOffset f pos

theorem localCreate_sameOutside {n : Nat} (h : DescriptorsOk w) (hp : placeAt w p ∈ F)
    (hin : ParentsIn D w.fs (fullPath w p)) (hcall : localStorageCreateFile w p n = some (w', reply)) :
    Fs.SameOutside D F w.fs w'.fs := by
  obtain ⟨fs1, hparents, hcall⟩ := Option.map_eq_some_iff.1 hcall
  have hmade := createParents_sameOutside (F := F) hparents hin
  have hok := (createParents_touches (C := ∅) (S := ∅) h.fs hparents).ok
  have hcwd := (createParents_touches (C := ∅) (S := ∅) h.fs hparents).cwd
  have hplace : Fs.placeOf fs1.cwd (buildFilePath w.priv.basePath p maxPathLen) ∈ F := by
    rw [hcwd]
    exact hp
  split at hcall
  · cases hcall
    exact hmade
  · rename_i fs2 fd hopen
    have hopened := hmade.trans (Fs.SameOutside.of_open hok hopen hplace)
    obtain ⟨htouch, -, -, f, hf, -, hat, -⟩ := Fs.openFile_cases (C := ∅) (S := ∅) hok hopen
    have hclosed : Fs.SameOutside D F w.fs (fs2.close fd) := hopened.trans .close
    split at hcall
    · split at hcall
      · rename_i fs3 htrunc
        cases hcall
        unfold Fs.ftruncate at htrunc
        rw [hf] at htrunc
        dsimp only at htrunc
        split at htrunc
        · cases htrunc
        · cases htrunc
          have hname : ∀ q, fs2.files q = some f.ino → q ∈ F := fun q hq => by
            rw [hat.names htouch.ok hq]
            exact hplace
          exact (hopened.trans (.setInode hname _)).trans .close
      · dsimp only at hcall
        split at hcall
        · rename_i fs3 hu
          cases hcall
          have hsame : (fs2.close fd).cwd = fs1.cwd := htouch.cwd
          exact hclosed.trans (.of_unlink hu (by rwa [hsame]))
        · cases hcall
          exact hclosed
    · cases hcall
      exact hclosed

/-- A call changes nothing outside, if its file and the directories above it are not there. -/
theorem localExec_sameOutside {op : StorageOp} (h : DescriptorsOk w) (hp : placeAt w op.path ∈ F)
    (hin : ParentsIn D w.fs (fullPath w op.path)) (hcall : localExec env w op = some (w', reply)) :
    Fs.SameOutside D F w.fs w'.fs := by
  cases op with
  | createFile p n => exact localCreate_sameOutside h hp hin hcall
  | writeSync p off d => exact localWrite_sameOutside h hp hin hcall
  | readSync p off n => exact localRead_sameOutside h hp hcall
  | deleteFile p =>
    have hcall : localStorageDeleteFile w p = (w', reply) := Option.some.inj hcall
    unfold localStorageDeleteFile at hcall
    split at hcall
    · rename_i fs hu
      cases hcall
      exact .of_unlink hu hp
    · cases hcall
      exact .refl _
  | getFileInfo p =>
    cases hcall
    exact .refl _
  | fsync p =>
    obtain ⟨⟨w1, r⟩, hget, hcall⟩ := Option.map_eq_some_iff.1 hcall
    have hgot := getFileDescriptor_sameOutside (D := D) h hp hget
    cases r with
    | none =>
      cases hcall
      exact hgot
    | some fd =>
      dsimp only at hcall
      split at hcall <;> cases hcall <;> exact hgot

end

/-! ## Main theorem -/

/-- The backend works in its directory, and nothing outside has changed since `fs`. -/
structure Confined (fs : Fs) (base : CString) (w : LocalWorld) : Prop where
  descriptors : DescriptorsOk w
  basePath : w.priv.basePath = base
  cwd : w.fs.cwd = fs.cwd
  dir : Fs.IsDirectory w.fs base
  same : Fs.SameOutside (Fs.below (Fs.placeOf fs.cwd base)) (Fs.below (Fs.placeOf fs.cwd base)) fs w.fs

theorem confined_step {fs : Fs} {base : CString} {w w' : LocalWorld} {a : CallEnv × StorageOp} {reply : StorageReply}
    (h : Confined fs base w) (hin : Inside base a.2.path) (hs : localMachine.step w a = some (w', reply)) :
    Confined fs base w' := by
  have hbase : base ≠ [] := by
    rintro rfl
    obtain ⟨q, hq, -⟩ := h.dir
    cases hq
  have hpath : fullPath w a.2.path = base ++ slash :: a.2.path := by
    rw [fullPath, h.basePath, buildFilePath_inside hin]
  have hplace : placeAt w a.2.path ∈ Fs.below (Fs.placeOf fs.cwd base) := by
    rw [placeAt, hpath, ← h.cwd]
    exact Fs.placeOf_mem_below hbase hin.noUp
  have hparents : ParentsIn (Fs.below (Fs.placeOf fs.cwd base)) w.fs (fullPath w a.2.path) := by
    rw [hpath, ← h.cwd]
    exact hin.parents hbase h.dir
  have htouch := (localExec_touches h.descriptors hs).1
  refine ⟨htouch.ok, htouch.basePath.trans h.basePath, htouch.touches.cwd.trans h.cwd, ?_, ?_⟩
  · obtain ⟨q, hq, hdir⟩ := h.dir
    exact ⟨q, Fs.resolve_mono htouch.touches.cwd htouch.touches.dirs hq, htouch.touches.dirs q hdir⟩
  · exact h.same.trans (localExec_sameOutside h.descriptors hplace hparents hs)

/-- Whatever is called on a new backend with paths inside, no directory and no file outside
its base directory is made, changed or removed. -/
theorem calls_stay_inside {fs fs' : Fs} {config : Option CString} {priv : LocalStoragePrivate} (hfs : fs.Ok)
    (hinit : localStorageInit fs config = some (fs', .ok priv)) (hdir : Fs.IsDirectory fs' priv.basePath)
    {calls : List (CallEnv × StorageOp)} (hin : ∀ a ∈ calls, Inside priv.basePath a.2.path) {w : LocalWorld}
    {replies : List StorageReply} (hrun : localMachine.run ⟨fs', priv⟩ calls = some (w, replies)) :
    ∀ q, ¬ Fs.placeOf fs'.cwd priv.basePath <+: q →
      w.fs.isDir q = fs'.isDir q ∧ w.fs.contentAt q = fs'.contentAt q := by
  have hstart : Confined fs' priv.basePath ⟨fs', priv⟩ :=
    ⟨(deletionsOk_init hfs hinit).descriptors, rfl, rfl, hdir, .refl _⟩
  have hall := Machine.along_of_forall (M := localMachine) hin ⟨fs', priv⟩
  have hend : Confined fs' priv.basePath w := Machine.run_inv_along
    (fun w a w' b h ha hs => confined_step h ha hs) hstart hall hrun
  exact fun q hq => ⟨hend.same.dirs q hq, hend.same.contents q hq⟩

/-- A file two directories down, and one that is made and deleted. -/
def nestedCalls : List (CallEnv × StorageOp) :=
  calmly [.writeSync (cstr "a/b/c") 0 [1], .createFile (cstr "x/./y") 4, .deleteFile (cstr "x/y")]

theorem nestedCalls_stay : ∃ w replies, localMachine.run freshLocal nestedCalls = some (w, replies) ∧
    replies = [.ofCode .ok, .ofCode .ok, .ofCode .ok] ∧
    ∀ q, ¬ [cstr "tmp", cstr "xdevice"] <+: q → w.fs.isDir q = freshLocal.fs.isDir q ∧ w.fs.contentAt q = none := by
  have hreplies : (localMachine.run freshLocal nestedCalls).map Prod.snd = some [.ofCode .ok, .ofCode .ok, .ofCode .ok] := by
    decide +kernel
  obtain ⟨⟨w, replies⟩, hrun, he⟩ := Option.map_eq_some_iff.1 hreplies
  have hdir : Fs.IsDirectory freshLocal.fs freshLocal.priv.basePath := ⟨_, freshLocal_base.resolves, freshLocal_base.dir⟩
  exact ⟨w, replies, hrun, he, calls_stay_inside emptyDisk_ok freshLocal_init hdir (by decide +kernel) hrun⟩

-- the code lets a path climb, or start at the root
example : ((localMachine.run freshLocal (calmly [.createFile (cstr "../x") 0, .createFile (cstr "/y/z") 0])).map fun r =>
    (r.1.fs.contentAt [cstr "tmp", cstr "x"], r.1.fs.contentAt [cstr "y", cstr "z"])) = some (some [], some []) := by
  decide +kernel

end XDevice
