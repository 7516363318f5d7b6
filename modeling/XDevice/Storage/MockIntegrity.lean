import XDevice.Storage.MockBounds
/-!
# The file list of the Mock backend

The list keeps the first 511 bytes of a path and is searched for the whole path. A file
under a longer path is therefore made and never found again, and made once more by the
next write. Neither route that creates a file looks at the size limit before.
-/
open Lib

namespace XDevice

/-! ## The invariant -/

/-- The paths that were created or written and not deleted since. -/
def livePaths (live : List CString) : MockCall → XdeviceError → List CString
  | .op _ (.createFile path _), .ok | .op _ (.writeSync path _ _), .ok => path :: live
  | .op _ (.deleteFile path), .ok => live.filter (· ≠ path)
  | _, _ => live

/-- A backend with the live paths of its run. -/
def mockHistory : Machine (MockStoragePrivate × List CString) MockCall StorageReply where
  step s c := (mockStore.step s.1 c).map fun r => ((r.1, livePaths s.2 c r.2.code), r.2)

/-- The list represents a set of files within the limits, the live paths among them. -/
structure Represents (s : MockStoragePrivate × List CString) : Prop where
  paths : (s.1.files.map MockFile.path).Nodup
  count : s.1.fileCount = s.1.files.length
  limit : s.1.fileCount ≤ s.1.maxFiles
  sizes : ∀ f ∈ s.1.files, f.size ≤ s.1.maxFileSize
  found : ∀ p ∈ s.2, findFile s.1 p ≠ none

/-- The path is missing, and there is room in the list and memory for `n` bytes. -/
def CanCreate (env : CallEnv) (priv : MockStoragePrivate) (path : CString) (n : Nat) : Prop :=
  lookup MockFile.path priv.files path = none ∧ priv.fileCount < priv.maxFiles ∧ env.mallocFile = true ∧
    (0 < n → env.mallocData n = true ∧ n ≤ ptrdiffMax)

/-- The end of the range of a call is a word of 64 bits. -/
def MockCall.NoWrap : MockCall → Prop
  | .op _ call => call.extent < 2 ^ 64
  | _ => True

/-- A call that creates a file under a path that is cut short, or makes a file larger than
the limit. -/
def LeavesLimits (priv : MockStoragePrivate) : MockCall → Prop
  | .op env (.createFile path n) => CanCreate env priv path n ∧ (maxPathLen ≤ path.length ∨ priv.maxFileSize < n)
  | .op env (.writeSync path offset data) => OverLimit priv (.op env (.writeSync path offset data)) ∨
      data.length ≠ 0 ∧ (priv.injectWriteErrors && shouldInjectError env priv) = false ∧
        CanCreate env priv path (offset + data.length) ∧ maxPathLen ≤ path.length
  | _ => False

/-! ## What calls keep -/

section
variable {priv : MockStoragePrivate} {live : List CString} {path : CString} {file : MockFile}

/-- The stored paths fit their field, and the blocks are those allocated, or freed. -/
structure MockStored (priv : MockStoragePrivate) : Prop where
  short : ∀ f ∈ priv.files, f.path.length < maxPathLen
  blocks : Allocated priv

theorem findFile_ne_none {p : CString} : findFile priv p ≠ none ↔ p ∈ priv.files.map MockFile.path := by
  rw [findFile, ne_eq, indexOf_eq_none, lookup_eq_none, not_not]

theorem Represents.withStats (h : Represents (priv, live)) (st : StorageStats) : Represents (priv.withStats st, live) :=
  ⟨h.1, h.2, h.3, h.4, h.5⟩

/-- A new file under a path that was missing and is not cut. -/
theorem Represents.link (h : Represents (priv, live)) (hmiss : lookup MockFile.path priv.files path = none)
    (hpath : file.path = path) (hcount : priv.fileCount < priv.maxFiles) (hsize : file.size ≤ priv.maxFileSize) :
    Represents (priv.link file, path :: live) where
  paths := List.nodup_cons.2 ⟨hpath ▸ (lookup_eq_none MockFile.path).1 hmiss, h.paths⟩
  count := congrArg (· + 1) h.count
  limit := hcount
  sizes := List.forall_mem_cons.2 ⟨hsize, h.sizes⟩
  found := by
    refine List.forall_mem_cons.2 ⟨?_, fun p hp => ?_⟩
    · exact findFile_ne_none.2 (List.mem_map.2 ⟨file, List.mem_cons_self, hpath⟩)
    · exact findFile_ne_none.2 (List.mem_cons_of_mem _ (findFile_ne_none.1 (h.found p hp)))

/-- A file changed in its place, under its path and within the limit. -/
theorem Represents.setFile {i : Nat} {file' : MockFile} (h : Represents (priv, live))
    (hget : priv.files[i]? = some file) (hpath : file'.path = file.path) (hsize : file'.size ≤ priv.maxFileSize) :
    Represents (priv.setFile i file', live) := by
  have hsame : (priv.setFile i file').files.map MockFile.path = priv.files.map MockFile.path := by
    obtain ⟨hi, rfl⟩ := List.getElem?_eq_some_iff.1 hget
    rw [MockStoragePrivate.setFile, List.map_set, hpath, ← List.getElem_map MockFile.path, List.set_getElem_self]
    rwa [List.length_map]
  refine ⟨hsame ▸ h.paths, h.count.trans (List.length_set ..).symm, h.limit, fun f hf => ?_, fun p hp => ?_⟩
  · exact (List.mem_or_eq_of_mem_set hf).elim (h.sizes f) fun e => e ▸ hsize
  · have hfound := findFile_ne_none.1 (h.found p hp)
    rw [← hsame] at hfound
    exact findFile_ne_none.2 hfound

/-- A path that is there may count as live. -/
theorem Represents.alive (h : Represents (priv, live)) (hfound : path ∈ priv.files.map MockFile.path) :
    Represents (priv, path :: live) :=
  ⟨h.1, h.2, h.3, h.4, List.forall_mem_cons.2 ⟨findFile_ne_none.2 hfound, h.found⟩⟩

theorem Represents.remove (h : Represents (priv, live)) (hlookup : lookup MockFile.path priv.files path = some file) :
    Represents ({ priv with
      files := priv.files.eraseP fun f => f.path = path
      fileCount := priv.fileCount - 1 }, live.filter (· ≠ path)) where
  paths := nodup_eraseP MockFile.path h.paths _
  count := by
    have hlen := h.count
    have hp : decide (file.path = path) = true := decide_eq_true (key_of_lookup MockFile.path hlookup)
    have herase := List.length_eraseP_of_mem (p := fun f : MockFile => f.path = path) (mem_of_lookup _ hlookup) hp
    dsimp only at hlen ⊢
    omega
  limit := Nat.le_trans (Nat.sub_le ..) h.limit
  sizes f hf := h.sizes f (List.mem_of_mem_eraseP hf)
  found p hp := by
    obtain ⟨hlive, hne⟩ := List.mem_filter.1 hp
    have hfound : lookup MockFile.path priv.files p ≠ none := fun hnone => h.found p hlive ((indexOf_eq_none _).2 hnone)
    have hne : p ≠ path := by simpa using hne
    intro hnone
    have hgone := (indexOf_eq_none _).1 hnone
    rw [lookup_eraseP MockFile.path h.paths, if_neg hne] at hgone
    exact hfound hgone

/-- Every call keeps the paths short and the blocks allocated. -/
theorem mockStore_stored : mockStore.Keeps MockStored := by
  intro priv c priv' reply h hs
  refine ⟨?_, mockStore_allocated priv c priv' reply h.blocks hs⟩
  refine mockStore_keeps_files (Q := fun f => f.path.length < maxPathLen) (fun hnew => ?_) (fun f f' hpath _ hshort => ?_)
    priv c priv' reply h.short hs
  · rw [hnew.path, strncpy, List.length_take]
    exact Nat.lt_of_le_of_lt (Nat.min_le_left ..) (by decide)
  · rwa [hpath]

/-! ## Steps -/

variable {env : CallEnv} {priv' : MockStoragePrivate} {reply : StorageReply}

theorem livePaths_failed {c : MockCall} {code : XdeviceError} (h : code ≠ .ok) : livePaths live c code = live := by
  unfold livePaths
  split <;> first | rfl | exact absurd rfl h

theorem NewFile.canCreate {n : Nat} (hmiss : lookup MockFile.path priv.files path = none)
    (h : NewFile env priv path n file) : CanCreate env priv path n :=
  ⟨hmiss, h.count, h.mallocFile, h.mallocData⟩

theorem create_represents {n : Nat} (h : Represents (priv, live)) (hc : ¬ LeavesLimits priv (.op env (.createFile path n)))
    (hs : mockStorageCreateFile env priv path n = some (priv', reply)) :
    Represents (priv', livePaths live (.op env (.createFile path n)) reply.code) := by
  rcases mockCreate_cases hs with ⟨hfail, rfl⟩ | ⟨hok, hmiss, file, hnew, rfl⟩
  · rw [livePaths_failed hfail]
    exact h
  · obtain ⟨hshort, hsize⟩ := not_or.1 fun hleaves => hc ⟨hnew.canCreate hmiss, hleaves⟩
    rw [hok]
    exact h.link hmiss (hnew.path_eq (Nat.not_le.1 hshort)) hnew.count (hnew.size ▸ Nat.not_lt.1 hsize)

theorem write_represents {offset : Nat} {data : Bytes} (h : Represents (priv, live))
    (hword : offset + data.length < 2 ^ 64) (hc : ¬ LeavesLimits priv (.op env (.writeSync path offset data)))
    (hs : mockStorageWriteSync env priv path offset data = some (priv', reply)) :
    Represents (priv', livePaths live (.op env (.writeSync path offset data)) reply.code) := by
  obtain ⟨hover, hlong⟩ := not_or.1 hc
  rcases mockWrite_cases hs with ⟨hfail, st, rfl⟩ |
    ⟨hdata, hinject, ⟨i, file, hfind, hget, hmem, hpath, hlookup, hwrite⟩ | ⟨file, hmiss, hnew, hwrite⟩⟩
  · rw [livePaths_failed hfail]
    exact h.withStats st
  · rcases writeFile_cases hget hwrite with ⟨hcode, rfl, -⟩ | ⟨hcode, rfl, -⟩ |
      ⟨file', hsame', ⟨-, -, hmax, rfl | ⟨hsize, hlt, hgrow⟩⟩ | ⟨hok, hmax, st, rfl⟩⟩
    · rw [hcode]
      exact h
    · rw [hcode]
      exact h.setFile hget rfl (h.sizes file hmem)
    · exact absurd (h.sizes file' hmem) (Nat.not_le.2 hmax)
    · refine absurd ⟨hdata, hinject, hsize ▸ hmax, ?_⟩ hover
      rw [hlookup]
      exact ⟨hlt, hgrow⟩
    · have hset := (h.setFile hget hsame'.path hmax).withStats st
      have hi := (List.getElem?_eq_some_iff.1 hget).1
      rw [hok]
      exact hset.alive (List.mem_map.2 ⟨file', List.mem_set hi file', hsame'.path.trans hpath⟩)
  · -- the new file has the size that was asked for, so that it need not grow
    have hsize := hnew.size
    rcases writeFile_cases rfl hwrite with ⟨-, -, hlt⟩ | ⟨-, -, hlt, -⟩ |
      ⟨file', hsame', ⟨-, -, hmax, rfl | ⟨-, hlt, -⟩⟩ | ⟨hok, hmax, st, rfl⟩⟩
    · omega
    · omega
    · have hmax : priv.maxFileSize < file'.size := hmax
      refine absurd ⟨hdata, hinject, hsize ▸ hmax, ?_⟩ hover
      rw [hmiss]
      exact ⟨hnew.count, hnew.mallocFile, hnew.mallocData (by omega)⟩
    · omega
    · have hcan := hnew.canCreate hmiss
      rw [add64_eq hword] at hcan
      have hshort : path.length < maxPathLen := Nat.not_le.1 fun hle => hlong ⟨hdata, hinject, hcan, hle⟩
      have hlink := h.link hmiss (hsame'.path.trans (hnew.path_eq hshort)) hnew.count hmax
      rw [hok]
      exact hlink.withStats st

theorem represents_step {c : MockCall} (h : Represents (priv, live)) (hw : c.NoWrap) (hc : ¬ LeavesLimits priv c)
    (hs : mockStore.step priv c = some (priv', reply)) : Represents (priv', livePaths live c reply.code) := by
  rcases c with ⟨env, op⟩ | ⟨readErrors, writeErrors, percent⟩
  · cases op with
    | createFile path n => exact create_represents h hc hs
    | writeSync path offset data => exact write_represents h hw hc hs
    | readSync path offset size =>
      obtain ⟨st, rfl⟩ := mockRead_cases hs
      exact h.withStats st
    | deleteFile path =>
      rcases mockDelete_cases hs with ⟨hfail, rfl⟩ | ⟨hok, ⟨file, hlookup, -⟩, rfl⟩
      · rw [livePaths_failed hfail]
        exact h
      · rw [hok]
        exact h.remove hlookup
    | getFileInfo path =>
      cases hs
      exact h
    | fsync path =>
      cases hs
      exact h
  · cases hs
    exact ⟨h.1, h.2, h.3, h.4, h.5⟩

/-- A path that is cut is not found. -/
theorem not_represents_long (hst : MockStored priv) (hlong : maxPathLen ≤ path.length) :
    ¬ Represents (priv, path :: live) := by
  intro h
  obtain ⟨f, hf, hpath⟩ := List.mem_map.1 (findFile_ne_none.1 (h.found path List.mem_cons_self))
  have hshort := hst.short f hf
  rw [hpath] at hshort
  exact absurd hshort (Nat.not_lt.2 hlong)

theorem not_represents_large (hmem : file ∈ priv.files) (hmax : priv.maxFileSize < file.size) :
    ¬ Represents (priv, live) := fun h => absurd (h.sizes file hmem) (Nat.not_le.2 hmax)

/-- A creation that leaves the limits succeeds. -/
theorem create_leaves {n : Nat} (hst : MockStored priv) (hc : LeavesLimits priv (.op env (.createFile path n))) :
    ∃ priv' reply, mockStorageCreateFile env priv path n = some (priv', reply) ∧
      ¬ Represents (priv', livePaths live (.op env (.createFile path n)) reply.code) := by
  obtain ⟨⟨hmiss, hcreates⟩, hleaves⟩ := hc
  rcases createNewFile_returns env priv path n with ⟨-, hnot⟩ | ⟨file, hnew, -, -, hcreate⟩
  · exact absurd hcreates hnot
  · have hs : mockStorageCreateFile env priv path n = some (priv.link file, .ofCode .ok) := by
      unfold mockStorageCreateFile
      rw [findFile, (indexOf_eq_none MockFile.path).2 hmiss]
      dsimp only
      rw [hcreate]
      rfl
    refine ⟨_, _, hs, ?_⟩
    rcases hleaves with hlong | hmax
    · exact not_represents_long (mockStore_stored priv (.op env (.createFile path n)) _ _ hst hs) hlong
    · exact not_represents_large List.mem_cons_self (hnew.size.symm ▸ hmax)

/-- A write over the limit leaves a file that is too large. -/
theorem overLimit_leaves {offset : Nat} {data : Bytes} (hst : MockStored priv)
    (hover : OverLimit priv (.op env (.writeSync path offset data))) :
    ∃ priv', mockStorageWriteSync env priv path offset data = some (priv', .ofCode .noSpace) ∧
      ∃ f ∈ priv'.files, priv'.maxFileSize < f.size := by
  obtain ⟨priv', hs, hchanged⟩ := overLimit_fails hst.blocks hover
  refine ⟨priv', hs, ?_⟩
  rcases mockWrite_cases hs with ⟨-, st, rfl⟩ |
    ⟨-, -, ⟨i, file, -, hget, -, -, -, hwrite⟩ | ⟨file, -, -, hwrite⟩⟩
  · exact absurd ⟨.refl _, rfl⟩ hchanged
  · rcases writeFile_cases hget hwrite with ⟨hcode, -⟩ | ⟨hcode, -⟩ | ⟨file', -, ⟨-, rfl, hmax, -⟩ | ⟨hcode, -⟩⟩
    · cases hcode
    · cases hcode
    · exact ⟨file', List.mem_set (List.getElem?_eq_some_iff.1 hget).1 file', hmax⟩
    · cases hcode
  · rcases writeFile_cases rfl hwrite with ⟨hcode, -⟩ | ⟨hcode, -⟩ | ⟨file', -, ⟨-, rfl, hmax, -⟩ | ⟨hcode, -⟩⟩
    · cases hcode
    · cases hcode
    · exact ⟨file', List.mem_cons_self, hmax⟩
    · cases hcode

/-- A write that leaves the limits makes a file that is too large, or succeeds under a path
that is not found again. -/
theorem write_leaves {offset : Nat} {data : Bytes} (hst : MockStored priv) (hword : offset + data.length < 2 ^ 64)
    (hc : LeavesLimits priv (.op env (.writeSync path offset data))) :
    ∃ priv' reply, mockStorageWriteSync env priv path offset data = some (priv', reply) ∧
      ¬ Represents (priv', livePaths live (.op env (.writeSync path offset data)) reply.code) := by
  rcases hc with hover | ⟨hdata, hinject, ⟨hmiss, hcreates⟩, hlong⟩
  · obtain ⟨priv', hs, f, hf, hmax⟩ := overLimit_leaves hst hover
    exact ⟨priv', _, hs, not_represents_large hf hmax⟩
  · rcases createNewFile_returns env priv path (offset + data.length) with ⟨-, hnot⟩ | ⟨file, hnew, hf, -, hcreate⟩
    · exact absurd hcreates hnot
    · have hsize := hnew.size
      obtain ⟨priv', reply, hwrite, -⟩ := writeFile_bounded (priv.link file) 0 hf
        hword (fun hlt => absurd hlt (by omega)) fun hlt => absurd hlt (by omega)
      have hs : mockStorageWriteSync env priv path offset data = some (priv', reply) := by
        unfold mockStorageWriteSync
        rw [if_neg hdata, hinject, if_neg Bool.false_ne_true, findFile, (indexOf_eq_none MockFile.path).2 hmiss]
        dsimp only
        rw [add64_eq hword, hcreate]
        exact hwrite
      refine ⟨priv', reply, hs, ?_⟩
      rcases writeFile_cases rfl hwrite with ⟨-, -, hlt⟩ | ⟨-, -, hlt, -⟩ |
        ⟨file', -, ⟨-, rfl, hmax, -⟩ | ⟨hok, -, st, rfl⟩⟩
      · rw [add64_eq hword] at hlt
        omega
      · rw [add64_eq hword] at hlt
        omega
      · exact not_represents_large List.mem_cons_self hmax
      · rw [hok]
        exact not_represents_long (mockStore_stored priv (.op env (.writeSync path offset data)) _ _ hst hs) hlong

end

/-! ## Main theorem -/

theorem mockHistory_step {s s' : MockStoragePrivate × List CString} {c : MockCall} {reply : StorageReply} :
    mockHistory.step s c = some (s', reply) ↔
      mockStore.step s.1 c = some (s'.1, reply) ∧ s'.2 = livePaths s.2 c reply.code := by
  obtain ⟨priv', live'⟩ := s'
  simp only [mockHistory, Option.map_eq_some_iff, Prod.mk.injEq, Prod.exists]
  constructor
  · rintro ⟨_, _, hs, ⟨rfl, rfl⟩, rfl⟩
    exact ⟨hs, rfl⟩
  · rintro ⟨hs, rfl⟩
    exact ⟨_, _, hs, ⟨rfl, rfl⟩, rfl⟩

/-- In every state of a run on a fresh Mock backend the list represents the files, just when no
call creates a file under a path of more than 511 bytes or makes one larger than the limit. -/
theorem mock_list_represents_iff (calls : List MockCall) (hwords : ∀ c ∈ calls, c.NoWrap) :
    mockHistory.Always Represents (mockStorageInit, []) calls ↔
      mockHistory.Along (fun s c => ¬ LeavesLimits s.1 c) (mockStorageInit, []) calls := by
  have hempty : MockStored mockStorageInit := ⟨fun _ hf => absurd hf List.not_mem_nil, fun _ hf => absurd hf List.not_mem_nil⟩
  have hinit : Represents (mockStorageInit, []) :=
    ⟨List.nodup_nil, rfl, Nat.zero_le _, fun _ hf => absurd hf List.not_mem_nil, fun _ hp => absurd hp List.not_mem_nil⟩
  refine Machine.always_iff_along (I := fun s => MockStored s.1) ?_ ?_ hempty hinit hwords
  · rintro ⟨priv, live⟩ c ⟨priv', live'⟩ reply hst h hw hc hs
    obtain ⟨hs, hlive⟩ := mockHistory_step.1 hs
    obtain rfl : live' = livePaths live c reply.code := hlive
    exact ⟨mockStore_stored priv c priv' reply hst hs, represents_step h hw hc hs⟩
  · rintro ⟨priv, live⟩ c hst h hw hc
    have hleaves : LeavesLimits priv c := not_not.1 hc
    have hbreaks : ∃ priv' reply, mockStore.step priv c = some (priv', reply) ∧
        ¬ Represents (priv', livePaths live c reply.code) := by
      rcases c with ⟨env, op⟩ | ⟨readErrors, writeErrors, percent⟩
      · cases op with
        | createFile path n => exact create_leaves hst hleaves
        | writeSync path offset data => exact write_leaves hst hw hleaves
        | readSync | deleteFile | getFileInfo | fsync => exact absurd hleaves id
      · exact absurd hleaves id
    obtain ⟨priv', reply, hs, hnot⟩ := hbreaks
    exact ⟨(priv', livePaths live c reply.code), reply, mockHistory_step.2 ⟨hs, rfl⟩, hnot⟩

theorem small_files_represented :
    mockHistory.Always Represents (mockStorageInit, [])
      [.op .calm (.createFile (cstr "a") 4), .op .calm (.writeSync (cstr "b") 1 [7]), .op .calm (.deleteFile (cstr "a"))] := by
  refine (mock_list_represents_iff _ ?_).2 ⟨?_, fun _ _ hs => ?_⟩
  · simp [MockCall.NoWrap, StorageOp.extent]
  · rintro ⟨-, hlong | hlarge⟩
    · exact absurd hlong (by decide)
    · exact absurd hlarge (by decide)
  · cases hs
    refine ⟨?_, fun _ _ _ => ⟨id, fun _ _ _ => trivial⟩⟩
    rintro (⟨-, -, hlarge, -⟩ | ⟨-, -, -, hlong⟩)
    · exact absurd hlarge (by decide)
    · exact absurd hlong (by decide)

/-- A path of 512 bytes. -/
def longPath : CString := List.replicate 512 97

theorem longPath_leaves : LeavesLimits mockStorageInit (.op .calm (.createFile longPath 0)) :=
  ⟨⟨rfl, by decide, rfl, nofun⟩, .inl (Nat.le_of_eq List.length_replicate.symm)⟩

/-- A call that leaves the limits ends a run of one call badly. -/
theorem not_always_of_leaves {path : CString} {n : Nat} (h : LeavesLimits mockStorageInit (.op .calm (.createFile path n))) :
    ¬ mockHistory.Always Represents (mockStorageInit, []) [.op .calm (.createFile path n)] := by
  intro halways
  obtain ⟨priv', reply, hs, hnot⟩ :=
    create_leaves ⟨fun _ hf => absurd hf List.not_mem_nil, fun _ hf => absurd hf List.not_mem_nil⟩ h
  exact hnot (halways.2 (priv', livePaths [] (.op .calm (.createFile path n)) reply.code) reply
    (mockHistory_step.2 ⟨hs, rfl⟩))

/-- The file under the long path is created twice and not found; a file over the limit is
created. -/
theorem long_path_not_found :
    ((mockStore.run mockStorageInit [.op .calm (.createFile longPath 0), .op .calm (.createFile longPath 0)]).map fun r =>
      (r.2.map (·.code), r.1.files.map MockFile.path, findFile r.1 longPath)) =
        some ([.ok, .ok], [longPath.take 511, longPath.take 511], none) ∧
    ¬ mockHistory.Always Represents (mockStorageInit, []) [.op .calm (.createFile longPath 0)] ∧
    ¬ mockHistory.Always Represents (mockStorageInit, []) [.op .calm (.createFile (cstr "a") (2 ^ 30 + 1))] := by
  refine ⟨by decide +kernel, not_always_of_leaves longPath_leaves, not_always_of_leaves ?_⟩
  exact ⟨⟨rfl, by decide, rfl, fun _ => ⟨rfl, by decide⟩⟩, .inr (by decide)⟩

end XDevice
