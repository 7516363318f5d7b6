import XDevice.Storage.MockRefinement
import Mathlib.Data.Multiset.ZeroCons
/-!
# What failing Mock calls leave behind

`mock_storage_write_sync` creates or grows the file before it checks the size limit. A
write that gets that far and fails the check leaves the larger file, and one that grows a
file to 2^63 bytes loses its contents: the new capacity wraps to 0. Every other call that
fails leaves all files as they were.
-/
open Lib

namespace XDevice

/-! ## Calls -/

/-- A call through the interface, or a change of the error injection. -/
inductive MockCall where
  | op (env : CallEnv) (op : StorageOp)
  | setErrorInjection (injectReadErrors injectWriteErrors : Bool) (errorRatePercent : Nat)

def mockStore : Machine MockStoragePrivate MockCall StorageReply where
  step priv
    | .op env op => mockExec env priv op
    | .setErrorInjection readErrors writeErrors percent =>
      some (mockStorageSetErrorInjection priv readErrors writeErrors percent, .ofCode .ok)

/-- A file as a caller can know it. -/
def MockFile.shown (f : MockFile) : CString × Nat × Bytes := (f.path, f.size, f.content)

/-- The same files with the same sizes and contents, in any order, and the same count. -/
structure FilesKept (priv priv' : MockStoragePrivate) : Prop where
  files : (priv'.files.map MockFile.shown).Perm (priv.files.map MockFile.shown)
  fileCount : priv'.fileCount = priv.fileCount

/-- If the call returns an error, then the files are the same. -/
def FailsCleanly (priv : MockStoragePrivate) (c : MockCall) : Prop :=
  ∀ priv' reply, mockStore.step priv c = some (priv', reply) → reply.code ≠ .ok → FilesKept priv priv'

/-- `expand_file` succeeds: the block is large enough, or `realloc` gives one of twice
`newSize` (which may wrap) that holds the file. -/
def MockFile.CanGrow (env : CallEnv) (file : MockFile) (newSize : Nat) : Prop :=
  ¬ file.Dangling ∧ (newSize ≤ file.capacity ∨
    Reallocs (env.mallocData (mul64 newSize 2)) file.data (mul64 newSize 2) ∧ file.size ≤ mul64 newSize 2)

/-- A write that makes a file larger than the limit: no error is injected, and the file is
there and can grow, or is missing and can be created. -/
def OverLimit (priv : MockStoragePrivate) : MockCall → Prop
  | .op env (.writeSync path offset data) =>
    let newSize := add64 offset data.length
    data.length ≠ 0 ∧ (priv.injectWriteErrors && shouldInjectError env priv) = false ∧ priv.maxFileSize < newSize ∧
      match lookup MockFile.path priv.files path with
      | some file => file.size < newSize ∧ file.CanGrow env newSize
      | none =>
        priv.fileCount < priv.maxFiles ∧ env.mallocFile = true ∧ env.mallocData newSize = true ∧ newSize ≤ ptrdiffMax
  | _ => False

/-- A write that grows a file with a block to 2^63 bytes, no error being injected: the
`realloc` is to twice as much, which wraps to 0. -/
def FreesContents (priv : MockStoragePrivate) : MockCall → Prop
  | .op env (.writeSync path offset data) =>
    data.length ≠ 0 ∧ (priv.injectWriteErrors && shouldInjectError env priv) = false ∧
      add64 offset data.length = 2 ^ 63 ∧ ∃ file, lookup MockFile.path priv.files path = some file ∧
        file.data ≠ [] ∧ file.size < 2 ^ 63 ∧ file.capacity < 2 ^ 63
  | _ => False

/-! ## Growing a file -/

/-- The capacity is what was allocated, unless the block was freed, and a file with a
capacity is not empty. -/
structure MockFile.Sound (file : MockFile) : Prop where
  block : file.data.length = file.capacity ∨ file.Dangling
  inUse : file.capacity ≠ 0 → file.size ≠ 0

theorem MockFile.Sound.allocated {file : MockFile} (h : file.Sound) (hlive : ¬ file.Dangling) :
    file.data.length = file.capacity := h.block.resolve_right hlive

theorem MockFile.not_dangling {file : MockFile} (hdata : file.data ≠ []) : ¬ file.Dangling := fun h => hdata h.1

theorem memset_eq_some {block data : Bytes} {off n : Nat} (h : memset block off n = some data) :
    off + n ≤ block.length ∧ data.length = block.length := by
  simp only [memset, memcpy, Option.ite_none_right_eq_some, Option.some.injEq, List.length_replicate] at h
  obtain ⟨hin, rfl⟩ := h
  exact ⟨hin, length_writeAt_inside 0 (by rwa [List.length_replicate])⟩

/-- A file without its block keeps nothing. -/
theorem MockFile.Sound.freed {file : MockFile} (h : file.Sound) (hdata : file.data ≠ []) :
    MockFile.Sound { file with data := [] } := by
  have hcap : file.capacity ≠ 0 := by
    rw [← h.allocated (MockFile.not_dangling hdata)]
    exact fun hzero => hdata (List.length_eq_zero_iff.1 hzero)
  exact ⟨.inr ⟨rfl, hcap⟩, h.inUse⟩

section
variable {env : CallEnv} {file file' : MockFile} {newSize : Nat} {ret : XdeviceError}

/-- Growing a file fails and leaves it, fails and frees its block, or succeeds. -/
theorem expandFile_cases (hlt : file.size < newSize) (hword : newSize < 2 ^ 64)
    (h : expandFile env file newSize = some (file', ret)) :
    (ret = .outOfMemory ∧ file' = file) ∨
    (ret = .outOfMemory ∧ newSize = 2 ^ 63 ∧ file.data ≠ [] ∧ file.capacity < 2 ^ 63 ∧ file' = { file with data := [] }) ∨
    (ret = .ok ∧ file.CanGrow env newSize ∧ file'.path = file.path ∧ file'.size = newSize ∧
      (file.data.length = file.capacity → file'.data.length = file'.capacity)) := by
  unfold expandFile at h
  split at h
  · rename_i hcap
    obtain ⟨data, hset, he⟩ := Option.map_eq_some_iff.1 h
    cases he
    obtain ⟨hin, hlen⟩ := memset_eq_some hset
    have hdata : file.data ≠ [] := by
      intro hnil
      rw [hnil, List.length_nil] at hin
      omega
    exact .inr (.inr ⟨rfl, ⟨MockFile.not_dangling hdata, .inl hcap⟩, rfl, rfl, fun halloc => hlen.trans halloc⟩)
  · rename_i hcap
    split at h
    · cases h
    · rename_i hlive
      dsimp only at h
      split at h
      · cases h
        unfold reallocLeft
        by_cases hzero : mul64 newSize 2 = 0
        · rw [if_pos hzero]
          by_cases hdata : file.data = []
          · exact .inl ⟨rfl, by rw [← hdata]⟩
          · have hhalf : newSize = 2 ^ 63 := by
              unfold mul64 at hzero
              omega
            exact .inr (.inl ⟨rfl, hhalf, hdata, by omega, rfl⟩)
        · rw [if_neg hzero]
          exact .inl ⟨rfl, rfl⟩
      · rename_i block hrealloc
        obtain ⟨data, hset, he⟩ := Option.map_eq_some_iff.1 h
        cases he
        obtain ⟨hin, hlen⟩ := memset_eq_some hset
        have hblock := length_realloc hrealloc
        obtain ⟨havail, -⟩ := Option.ite_none_right_eq_some.1 hrealloc
        refine .inr (.inr ⟨rfl, ⟨hlive, .inr ⟨havail, ?_⟩⟩, rfl, rfl, fun _ => hlen.trans hblock⟩)
        have hsize := hlt.trans hword
        unfold sub64 at hin
        omega

/-- An allocated file grows when it can. -/
theorem expandFile_canGrow (halloc : file.data.length = file.capacity) (hlt : file.size < newSize)
    (hgrow : file.CanGrow env newSize) : ∃ file', expandFile env file newSize = some (file', .ok) := by
  obtain ⟨hlive, hgrow⟩ := hgrow
  unfold expandFile
  split
  · rw [memset_eq (by omega)]
    exact ⟨_, rfl⟩
  · rename_i hcap
    obtain ⟨havail, hfit⟩ := hgrow.resolve_left hcap
    have hrealloc : ∃ block, realloc (env.mallocData (mul64 newSize 2)) env.junk file.data (mul64 newSize 2) =
        some block := ⟨_, if_pos havail⟩
    obtain ⟨block, hblock⟩ := hrealloc
    have hlen := length_realloc hblock
    have hword : mul64 newSize 2 < 2 ^ 64 := Nat.mod_lt _ (by omega)
    simp only [hblock]
    rw [sub64_eq hfit hword, memset_eq (by omega)]
    exact ⟨_, rfl⟩

/-- A file with a block loses it when it is to grow to 2^63 bytes. -/
theorem expandFile_frees (hdata : file.data ≠ []) (hcap : file.capacity < 2 ^ 63) :
    expandFile env file (2 ^ 63) = some ({ file with data := [] }, .outOfMemory) := by
  have hzero : mul64 (2 ^ 63) 2 = 0 := by decide
  have hrealloc : realloc (env.mallocData 0) env.junk file.data 0 = none := if_neg fun h => hdata (h.2.2 rfl)
  unfold expandFile
  rw [if_neg (Nat.not_le.2 hcap), if_neg (MockFile.not_dangling hdata)]
  simp only [hzero, hrealloc]
  rfl

end

/-! ## What every call keeps -/

/-- The capacity of a file is what was allocated, or the block was freed. -/
def Allocated (priv : MockStoragePrivate) : Prop := ∀ f ∈ priv.files, f.Sound

theorem add64_lt (a b : Nat) : add64 a b < 2 ^ 64 := Nat.mod_lt _ (by omega)

section
variable {env : CallEnv} {priv priv' : MockStoragePrivate} {i : Nat} {file : MockFile} {path : CString}
  {offset : Nat} {data : Bytes} {reply : StorageReply}

theorem setFile_same (hfile : priv.files[i]? = some file) : priv.setFile i file = priv := by
  obtain ⟨hi, rfl⟩ := List.getElem?_eq_some_iff.1 hfile
  rw [MockStoragePrivate.setFile, List.set_getElem_self]

/-- What the write makes of the file it has grown, if it gets that far: the check of the size
comes after. -/
theorem writeFile_of_grown {file' : MockFile}
    (hgrown : (if file.size < add64 offset data.length then expandFile env file (add64 offset data.length)
      else some (file, .ok)) = some (file', .ok)) :
    writeFile env priv i file offset data =
      if priv.maxFileSize < file'.size then some (priv.setFile i file', .ofCode .noSpace)
      else (memcpy file'.data offset data).map fun block =>
        ((priv.setFile i { file' with data := block, modifiedTime := env.now }).withStats
          (priv.stats.countWrite data.length env.latencyNs), .ofCode .ok) := by
  unfold writeFile
  dsimp only
  rw [hgrown]
  rfl

/-- What the write leaves of a file that does not grow. -/
theorem writeFile_of_failed {file' : MockFile} (hlt : file.size < add64 offset data.length)
    (hgrown : expandFile env file (add64 offset data.length) = some (file', .outOfMemory)) :
    writeFile env priv i file offset data = some (priv.setFile i file', .ofCode .outOfMemory) := by
  unfold writeFile
  dsimp only
  rw [if_pos hlt, hgrown]
  rfl

/-- The same file after growing or a copy into it: it has its block just when it had it before. -/
structure MockFile.SameAs (file file' : MockFile) : Prop where
  path : file'.path = file.path
  sound : file.Sound → file'.Sound
  dangling : file.Sound → (file'.Dangling ↔ file.Dangling)

theorem MockFile.SameAs.refl (file : MockFile) : file.SameAs file := ⟨rfl, id, fun _ => Iff.rfl⟩

/-- A copy into the block. -/
theorem MockFile.SameAs.copied {file' : MockFile} (h : file.SameAs file') {block : Bytes} (now : Nat)
    (hlen : block.length = file'.data.length) : file.SameAs { file' with data := block, modifiedTime := now } := by
  have hnil : block = [] ↔ file'.data = [] := by
    rw [← List.length_eq_zero_iff, ← List.length_eq_zero_iff, hlen]
  have hdangling : MockFile.Dangling { file' with data := block, modifiedTime := now } ↔ file'.Dangling :=
    and_congr_left' hnil
  refine ⟨h.path, fun hf => ⟨?_, (h.sound hf).inUse⟩, fun hf => hdangling.trans (h.dangling hf)⟩
  exact (h.sound hf).block.imp hlen.trans hdangling.2

/-- A write through a file pointer fails without growing the file, frees its block, or may
have grown it before it fails or succeeds. -/
theorem writeFile_cases (hfile : priv.files[i]? = some file)
    (h : writeFile env priv i file offset data = some (priv', reply)) :
    (reply.code = .outOfMemory ∧ priv' = priv ∧ file.size < add64 offset data.length) ∨
    (reply.code = .outOfMemory ∧ priv' = priv.setFile i { file with data := [] } ∧ file.size < add64 offset data.length ∧
      add64 offset data.length = 2 ^ 63 ∧ file.data ≠ [] ∧ file.capacity < 2 ^ 63) ∨
    ∃ file', file.SameAs file' ∧
      ((reply.code = .noSpace ∧ priv' = priv.setFile i file' ∧ priv.maxFileSize < file'.size ∧
          (file' = file ∨ file'.size = add64 offset data.length ∧ file.size < add64 offset data.length ∧
            file.CanGrow env (add64 offset data.length))) ∨
        (reply.code = .ok ∧ file'.size ≤ priv.maxFileSize ∧ ∃ st, priv' = (priv.setFile i file').withStats st)) := by
  have hword := add64_lt offset data.length
  -- the file as it is when its size is checked
  have hchecked : ∀ file1, (if file.size < add64 offset data.length then expandFile env file (add64 offset data.length)
        else some (file, .ok)) = some (file1, .ok) → file.SameAs file1 →
      (file1 = file ∨ file1.size = add64 offset data.length ∧ file.size < add64 offset data.length ∧
        file.CanGrow env (add64 offset data.length)) →
      ∃ file', file.SameAs file' ∧
        ((reply.code = .noSpace ∧ priv' = priv.setFile i file' ∧ priv.maxFileSize < file'.size ∧
            (file' = file ∨ file'.size = add64 offset data.length ∧ file.size < add64 offset data.length ∧
              file.CanGrow env (add64 offset data.length))) ∨
          (reply.code = .ok ∧ file'.size ≤ priv.maxFileSize ∧ ∃ st, priv' = (priv.setFile i file').withStats st)) := by
    intro file1 hgrown hsame hsize
    rw [writeFile_of_grown hgrown] at h
    split at h
    · rename_i hmax
      cases h
      exact ⟨file1, hsame, .inl ⟨rfl, rfl, hmax, hsize⟩⟩
    · rename_i hmax
      obtain ⟨block, hcopy, he⟩ := Option.map_eq_some_iff.1 h
      cases he
      obtain ⟨hin, hblock⟩ := Option.ite_none_right_eq_some.1 hcopy
      cases hblock
      exact ⟨_, hsame.copied env.now (length_writeAt_inside 0 hin), .inr ⟨rfl, Nat.not_lt.1 hmax, _, rfl⟩⟩
  by_cases hlt : file.size < add64 offset data.length
  · rw [if_pos hlt] at hchecked
    cases hgrow : expandFile env file (add64 offset data.length) with
    | none =>
      rw [writeFile, if_pos hlt, hgrow] at h
      cases h
    | some grown =>
      obtain ⟨file1, ret⟩ := grown
      rcases expandFile_cases hlt hword hgrow with
        ⟨rfl, rfl⟩ | ⟨rfl, hhalf, hdata, hcap, rfl⟩ | ⟨rfl, hcan, hpath, hsize, halloc⟩
      · rw [writeFile_of_failed hlt hgrow] at h
        cases h
        exact .inl ⟨rfl, setFile_same hfile, hlt⟩
      · rw [writeFile_of_failed hlt hgrow] at h
        cases h
        exact .inr (.inl ⟨rfl, rfl, hlt, hhalf, hdata, hcap⟩)
      · have hlive : file.Sound → file1.data.length = file1.capacity := fun hf => halloc (hf.allocated hcan.1)
        refine .inr (.inr (hchecked file1 hgrow ⟨hpath, fun hf => ⟨.inl (hlive hf), fun _ => by omega⟩, fun hf => ?_⟩
          (.inr ⟨hsize, hlt, hcan⟩)))
        exact iff_of_false (fun hgone => hgone.2 (by rw [← hlive hf, hgone.1]; rfl)) hcan.1
  · rw [if_neg hlt] at hchecked
    exact .inr (.inr (hchecked file rfl (.refl file) (.inl rfl)))

/-- A write through a file pointer changes that file and the statistics. -/
theorem writeFile_effect (hfile : priv.files[i]? = some file)
    (h : writeFile env priv i file offset data = some (priv', reply)) :
    ∃ file' st, priv' = (priv.setFile i file').withStats st ∧ file'.path = file.path ∧ (file.Sound → file'.Sound) := by
  rcases writeFile_cases hfile h with
    ⟨-, rfl, -⟩ | ⟨-, rfl, -, -, hdata, -⟩ | ⟨file', hsame, ⟨-, rfl, -⟩ | ⟨-, -, st, rfl⟩⟩
  · exact ⟨file, priv'.stats, by rw [setFile_same hfile]; rfl, rfl, id⟩
  · exact ⟨_, priv.stats, rfl, rfl, fun hf => hf.freed hdata⟩
  · exact ⟨file', priv.stats, rfl, hsame.path, hsame.sound⟩
  · exact ⟨file', st, rfl, hsame.path, hsame.sound⟩

/-- What it takes to create a file, and what it starts as. -/
structure NewFile (env : CallEnv) (priv : MockStoragePrivate) (path : CString) (n : Nat) (file : MockFile) : Prop where
  path : file.path = strncpy path (maxPathLen - 1)
  size : file.size = n
  allocated : file.data.length = file.capacity
  capacity : file.capacity = n
  count : priv.fileCount < priv.maxFiles
  mallocFile : env.mallocFile = true
  mallocData : 0 < n → env.mallocData n = true ∧ n ≤ ptrdiffMax

/-- A path that is not cut is stored whole. -/
theorem NewFile.path_eq {n : Nat} (h : NewFile env priv path n file) (hshort : path.length < maxPathLen) :
    file.path = path := h.path.trans (strncpy_eq (by simp only [maxPathLen] at hshort ⊢; omega))

theorem NewFile.sound {n : Nat} (h : NewFile env priv path n file) : file.Sound :=
  ⟨.inl h.allocated, fun hcap => by rwa [h.size, ← h.capacity]⟩

theorem NewFile.live {n : Nat} (h : NewFile env priv path n file) : ¬ file.Dangling := fun hgone =>
  hgone.2 (by rw [← h.allocated, hgone.1]; rfl)

theorem createNewFile_cases {n : Nat} (h : createNewFile env priv path n = some (some priv')) :
    ∃ file, NewFile env priv path n file ∧ priv' = priv.link file := by
  unfold createNewFile at h
  split at h
  · cases h
  · rename_i hcount
    split at h
    · cases h
    · rename_i hmalloc
      have hmalloc : env.mallocFile = true := by simpa using hmalloc
      dsimp only at h
      split at h
      · split at h
        · cases h
        · rename_i block hblock
          obtain ⟨data, hset, he⟩ := Option.map_eq_some_iff.1 h
          cases he
          obtain ⟨havail, hfresh⟩ := Option.ite_none_right_eq_some.1 hblock
          cases hfresh
          have hlen := (memset_eq_some hset).2
          rw [length_freshBlock] at hlen
          exact ⟨_, ⟨rfl, rfl, hlen, rfl, Nat.not_le.1 hcount, hmalloc, fun _ => havail⟩, rfl⟩
      · rename_i hzero
        cases h
        exact ⟨_, ⟨rfl, (Nat.eq_zero_of_not_pos hzero).symm, rfl, (Nat.eq_zero_of_not_pos hzero).symm,
          Nat.not_le.1 hcount, hmalloc, fun hpos => absurd hpos hzero⟩, rfl⟩

/-- What a write does, by whether it is refused at once, finds its file or creates it. -/
theorem mockWrite_cases (h : mockStorageWriteSync env priv path offset data = some (priv', reply)) :
    (reply.code ≠ .ok ∧ ∃ st, priv' = priv.withStats st) ∨
    (data.length ≠ 0 ∧ (priv.injectWriteErrors && shouldInjectError env priv) = false ∧
      ((∃ i file, findFile priv path = some i ∧ priv.files[i]? = some file ∧ file ∈ priv.files ∧ file.path = path ∧
          lookup MockFile.path priv.files path = some file ∧
          writeFile env priv i file offset data = some (priv', reply)) ∨
        (∃ file, lookup MockFile.path priv.files path = none ∧ NewFile env priv path (add64 offset data.length) file ∧
          writeFile env (priv.link file) 0 file offset data = some (priv', reply)))) := by
  unfold mockStorageWriteSync at h
  split at h
  · cases h
    exact .inl ⟨nofun, priv.stats, rfl⟩
  · rename_i hdata
    split at h
    · cases h
      exact .inl ⟨nofun, _, rfl⟩
    · rename_i hinject
      have hinject : (priv.injectWriteErrors && shouldInjectError env priv) = false := by simpa using hinject
      cases hfind : findFile priv path with
      | some i =>
        obtain ⟨file, hget, hlookup⟩ := getElem?_indexOf MockFile.path hfind
        rw [hfind] at h
        dsimp only at h
        rw [hget, Option.bind_some] at h
        exact .inr ⟨hdata, hinject, .inl ⟨i, file, rfl, hget, mem_of_lookup _ hlookup, key_of_lookup _ hlookup, hlookup, h⟩⟩
      | none =>
        rw [hfind] at h
        dsimp only at h
        obtain ⟨created, hcreate, h⟩ := Option.bind_eq_some_iff.1 h
        cases created with
        | none =>
          cases h
          exact .inl ⟨nofun, priv.stats, rfl⟩
        | some priv1 =>
          obtain ⟨file, hnew, rfl⟩ := createNewFile_cases hcreate
          exact .inr ⟨hdata, hinject, .inr ⟨file, (indexOf_eq_none MockFile.path).1 hfind, hnew, h⟩⟩

theorem mockCreate_cases {n : Nat} (h : mockStorageCreateFile env priv path n = some (priv', reply)) :
    (reply.code ≠ .ok ∧ priv' = priv) ∨
    (reply.code = .ok ∧ lookup MockFile.path priv.files path = none ∧
      ∃ file, NewFile env priv path n file ∧ priv' = priv.link file) := by
  unfold mockStorageCreateFile at h
  split at h
  · cases h
    refine .inl ⟨?_, rfl⟩
    intro he
    cases he
  · rename_i hfind
    obtain ⟨created, hcreate, he⟩ := Option.map_eq_some_iff.1 h
    cases created with
    | none =>
      cases he
      refine .inl ⟨?_, rfl⟩
      intro he
      cases he
    | some priv1 =>
      cases he
      exact .inr ⟨rfl, (indexOf_eq_none MockFile.path).1 hfind, createNewFile_cases hcreate⟩

/-- A read touches nothing but the statistics. -/
theorem mockRead_cases {size : Nat} (h : mockStorageReadSync env priv path offset size = some (priv', reply)) :
    ∃ st, priv' = priv.withStats st := by
  unfold mockStorageReadSync at h
  split at h
  · cases h
    exact ⟨priv.stats, rfl⟩
  · split at h
    · cases h
      exact ⟨_, rfl⟩
    · split at h
      · cases h
        exact ⟨priv.stats, rfl⟩
      · obtain ⟨file, -, h⟩ := Option.bind_eq_some_iff.1 h
        unfold readFile at h
        split at h
        · cases h
          exact ⟨priv.stats, rfl⟩
        · obtain ⟨bytes, -, he⟩ := Option.map_eq_some_iff.1 h
          cases he
          exact ⟨_, rfl⟩

theorem mockDelete_cases (h : mockStorageDeleteFile priv path = some (priv', reply)) :
    (reply.code ≠ .ok ∧ priv' = priv) ∨
    (reply.code = .ok ∧ (∃ file, lookup MockFile.path priv.files path = some file ∧ ¬ file.Dangling) ∧
      priv' = { priv with files := priv.files.eraseP fun f => f.path = path, fileCount := priv.fileCount - 1 }) := by
  unfold mockStorageDeleteFile removeFile at h
  cases hlookup : lookup MockFile.path priv.files path with
  | none =>
    rw [hlookup] at h
    cases h
    refine .inl ⟨?_, rfl⟩
    intro he
    cases he
  | some file =>
    rw [hlookup] at h
    dsimp only at h
    split at h
    · cases h
    · rename_i hlive
      cases h
      exact .inr ⟨rfl, ⟨file, rfl, hlive⟩, rfl⟩

section
variable {Q : MockFile → Prop}

theorem forall_setFile (hall : ∀ f ∈ priv.files, Q f) (hf : Q file) : ∀ f ∈ (priv.setFile i file).files, Q f :=
  fun g hg => (List.mem_or_eq_of_mem_set hg).elim (hall g) fun e => e ▸ hf

/-- What a write through a file pointer keeps of that file, it keeps of all. -/
theorem forall_writeFile (hkeep : ∀ f f' : MockFile, f'.path = f.path → (f.Sound → f'.Sound) → Q f → Q f')
    (hall : ∀ f ∈ priv.files, Q f) (hfile : priv.files[i]? = some file)
    (h : writeFile env priv i file offset data = some (priv', reply)) : ∀ f ∈ priv'.files, Q f := by
  obtain ⟨file', st, rfl, hpath, hsound⟩ := writeFile_effect hfile h
  exact forall_setFile hall (hkeep _ _ hpath hsound (hall file (List.mem_of_getElem? hfile)))

end

end

/-- What new files have and writing keeps, the files have after every call. -/
theorem mockStore_keeps_files {Q : MockFile → Prop}
    (hnew : ∀ {env priv path n file}, NewFile env priv path n file → Q file)
    (hkeep : ∀ f f' : MockFile, f'.path = f.path → (f.Sound → f'.Sound) → Q f → Q f') :
    mockStore.Keeps fun priv => ∀ f ∈ priv.files, Q f := by
  rintro priv (⟨env, op⟩ | ⟨readErrors, writeErrors, percent⟩) priv' reply hall h
  · cases op with
    | createFile path n =>
      rcases mockCreate_cases h with ⟨-, rfl⟩ | ⟨-, -, file, hfile, rfl⟩
      · exact hall
      · exact List.forall_mem_cons.2 ⟨hnew hfile, hall⟩
    | writeSync path offset data =>
      rcases mockWrite_cases h with ⟨-, st, rfl⟩ | ⟨-, -, ⟨i, file, -, hget, -, -, -, hwrite⟩ | ⟨file, -, hfile, hwrite⟩⟩
      · exact hall
      · exact forall_writeFile hkeep hall hget hwrite
      · exact forall_writeFile hkeep (List.forall_mem_cons.2 ⟨hnew hfile, hall⟩) rfl hwrite
    | readSync path offset size =>
      obtain ⟨st, rfl⟩ := mockRead_cases h
      exact hall
    | deleteFile path =>
      rcases mockDelete_cases h with ⟨-, rfl⟩ | ⟨-, -, rfl⟩
      · exact hall
      · exact fun f hf => hall f (List.mem_of_mem_eraseP hf)
    | getFileInfo path =>
      cases h
      exact hall
    | fsync path =>
      cases h
      exact hall
  · cases h
    exact hall

theorem mockStore_allocated : mockStore.Keeps Allocated :=
  mockStore_keeps_files (fun hnew => hnew.sound) fun _ _ _ hsound => hsound

/-! ## Main theorem -/

theorem FilesKept.refl (priv : MockStoragePrivate) : FilesKept priv priv := ⟨.refl _, rfl⟩

/-- Replacing an element by a different one is no reordering. -/
theorem eq_of_perm_set {α : Type} {l : List α} {i : Nat} {x y : α} (hy : l[i]? = some y) (h : (l.set i x).Perm l) : x = y := by
  obtain ⟨hi, rfl⟩ := List.getElem?_eq_some_iff.1 hy
  have hcons : (x :: l.eraseIdx i).Perm (l[i] :: l.eraseIdx i) :=
    (List.set_perm_cons_eraseIdx hi x).symm.trans (h.trans (List.getElem_cons_eraseIdx_perm hi).symm)
  have hmulti : (x ::ₘ l.eraseIdx i : Multiset α) = l[i] ::ₘ l.eraseIdx i := Multiset.coe_eq_coe.2 hcons
  exact (Multiset.cons_inj_left _).1 hmulti

/-- A file that can be created is. -/
theorem createNewFile_ok {env : CallEnv} {priv : MockStoragePrivate} {n : Nat} (path : CString)
    (hcount : priv.fileCount < priv.maxFiles) (hmalloc : env.mallocFile = true)
    (hdata : env.mallocData n = true ∧ n ≤ ptrdiffMax) :
    ∃ file, createNewFile env priv path n = some (some (priv.link file)) ∧ file.size = n := by
  unfold createNewFile
  rw [if_neg (Nat.not_le.2 hcount), if_neg (by simp [hmalloc])]
  dsimp only
  split
  · have hblock : malloc (env.mallocData n) env.junk n = some (freshBlock env.junk n) := if_pos hdata
    simp only [hblock]
    rw [memset_eq (by rw [length_freshBlock, Nat.zero_add])]
    exact ⟨_, rfl, rfl⟩
  · rename_i hzero
    exact ⟨_, rfl, (Nat.eq_zero_of_not_pos hzero).symm⟩

/-- A write over the limit returns an error, and a file is larger or there is one more. -/
theorem overLimit_fails {priv : MockStoragePrivate} (ha : Allocated priv) {env : CallEnv} {path : CString} {offset : Nat}
    {data : Bytes} (hover : OverLimit priv (.op env (.writeSync path offset data))) :
    ∃ priv', mockStorageWriteSync env priv path offset data = some (priv', .ofCode .noSpace) ∧ ¬ FilesKept priv priv' := by
  obtain ⟨hdata, hinject, hmax, hgrow⟩ := hover
  unfold mockStorageWriteSync
  rw [if_neg hdata, hinject, if_neg Bool.false_ne_true]
  cases hfind : findFile priv path with
  | some i =>
    obtain ⟨file, hget, hlookup⟩ := getElem?_indexOf MockFile.path hfind
    rw [hlookup] at hgrow
    obtain ⟨hlt, hcan⟩ := hgrow
    obtain ⟨file', hexpand⟩ := expandFile_canGrow ((ha file (mem_of_lookup _ hlookup)).allocated hcan.1) hlt hcan
    have hsize : file'.size = add64 offset data.length := by
      rcases expandFile_cases hlt (add64_lt ..) hexpand with ⟨hcode, -⟩ | ⟨hcode, -⟩ | ⟨-, -, -, hsize, -⟩
      · cases hcode
      · cases hcode
      · exact hsize
    dsimp only
    rw [hget, Option.bind_some, writeFile_of_grown ((if_pos hlt).trans hexpand), if_pos (hsize ▸ hmax)]
    -- the files are the same up to their order only if this one is the same
    refine ⟨_, rfl, fun hsame => ?_⟩
    have hperm := hsame.files
    rw [MockStoragePrivate.setFile, List.map_set] at hperm
    have hshown := eq_of_perm_set (by rw [List.getElem?_map, hget]; rfl) hperm
    have : file'.size = file.size := congrArg (fun shown => shown.2.1) hshown
    omega
  | none =>
    rw [(indexOf_eq_none MockFile.path).1 hfind] at hgrow
    obtain ⟨hcount, hmalloc, hmallocData, hptr⟩ := hgrow
    obtain ⟨file, hcreate, hsize⟩ := createNewFile_ok path hcount hmalloc ⟨hmallocData, hptr⟩
    dsimp only
    have hlarge : (priv.link file).maxFileSize < file.size := hsize ▸ hmax
    rw [hcreate, Option.bind_some]
    dsimp only
    rw [show (priv.link file).files.head? = some file from rfl, Option.bind_some,
      writeFile_of_grown (if_neg (by omega)), if_pos hlarge]
    -- a new file stays behind
    refine ⟨_, rfl, fun hsame => ?_⟩
    have hcount' : priv.fileCount + 1 = priv.fileCount := hsame.fileCount
    omega

/-- A write that frees the contents runs out of memory and leaves the file without its block. -/
theorem freesContents_step {priv : MockStoragePrivate} (hall : ∀ f ∈ priv.files, f.data ≠ [] → f.data.length = f.capacity)
    {env : CallEnv} {path : CString} {offset : Nat} {data : Bytes}
    (hfrees : FreesContents priv (.op env (.writeSync path offset data))) :
    ∃ i file, priv.files[i]? = some file ∧ file.data ≠ [] ∧ file.capacity ≠ 0 ∧
      mockStorageWriteSync env priv path offset data =
        some (priv.setFile i { file with data := [] }, .ofCode .outOfMemory) := by
  obtain ⟨hdata, hinject, hhalf, file, hlookup, hblock, hsize, hcap⟩ := hfrees
  have hlen := hall file (mem_of_lookup _ hlookup) hblock
  have hcapacity : file.capacity ≠ 0 := fun hzero => hblock (List.length_eq_zero_iff.1 (hlen.trans hzero))
  unfold mockStorageWriteSync
  rw [if_neg hdata, hinject, if_neg Bool.false_ne_true]
  cases hfind : findFile priv path with
  | none =>
    rw [(indexOf_eq_none MockFile.path).1 hfind] at hlookup
    cases hlookup
  | some i =>
    obtain ⟨file', hget, hlookup'⟩ := getElem?_indexOf MockFile.path hfind
    rw [hlookup] at hlookup'
    cases hlookup'
    have hlt : file.size < add64 offset data.length := hhalf ▸ hsize
    have hexpand : expandFile env file (add64 offset data.length) = some ({ file with data := [] }, .outOfMemory) := by
      rw [hhalf]
      exact expandFile_frees hblock hcap
    refine ⟨i, file, hget, hblock, hcapacity, ?_⟩
    dsimp only
    rw [hget, Option.bind_some, writeFile_of_failed hlt hexpand]

theorem Allocated.block {priv : MockStoragePrivate} (ha : Allocated priv) :
    ∀ f ∈ priv.files, f.data ≠ [] → f.data.length = f.capacity :=
  fun f hf hdata => (ha f hf).allocated (MockFile.not_dangling hdata)

/-- The file has no contents any more. -/
theorem freesContents_fails {priv : MockStoragePrivate} (ha : Allocated priv) {env : CallEnv} {path : CString}
    {offset : Nat} {data : Bytes} (hfrees : FreesContents priv (.op env (.writeSync path offset data))) :
    ∃ priv', mockStorageWriteSync env priv path offset data = some (priv', .ofCode .outOfMemory) ∧
      ¬ FilesKept priv priv' := by
  obtain ⟨i, file, hget, hblock, hcapacity, hwrite⟩ := freesContents_step ha.block hfrees
  refine ⟨_, hwrite, fun hsame => ?_⟩
  have hperm := hsame.files
  rw [MockStoragePrivate.setFile, List.map_set] at hperm
  have hshown := eq_of_perm_set (by rw [List.getElem?_map, hget]; rfl) hperm
  have hcontent : ([] : Bytes).take file.size = file.data.take file.size := congrArg (fun shown => shown.2.2) hshown
  rw [List.take_nil, eq_comm, List.take_eq_nil_iff] at hcontent
  exact hcontent.elim ((ha file (List.mem_of_getElem? hget)).inUse hcapacity) hblock

/-- One of many is replaced by one that is no worse and no better. -/
theorem forall_set_iff {α : Type} {P : α → Prop} {l : List α} {i : Nat} {x y : α} (hy : l[i]? = some y) (hxy : P x ↔ P y) :
    (∀ z ∈ l.set i x, P z) ↔ ∀ z ∈ l, P z := by
  obtain ⟨hi, rfl⟩ := List.getElem?_eq_some_iff.1 hy
  simp only [(List.set_perm_cons_eraseIdx hi x).mem_iff, ← (List.getElem_cons_eraseIdx_perm hi).mem_iff, List.forall_mem_cons,
    hxy]

/-- After a call no file is without its block just when there was none before and the call
frees none. -/
theorem step_dangling {priv priv' : MockStoragePrivate} {c : MockCall} {reply : StorageReply} (ha : Allocated priv)
    (hs : mockStore.step priv c = some (priv', reply)) :
    (∀ f ∈ priv'.files, ¬ f.Dangling) ↔ (∀ f ∈ priv.files, ¬ f.Dangling) ∧ ¬ FreesContents priv c := by
  rcases c with ⟨env, op⟩ | ⟨readErrors, writeErrors, percent⟩
  · cases op with
    | createFile path n =>
      refine Iff.trans ?_ (and_iff_left id).symm
      rcases mockCreate_cases hs with ⟨-, rfl⟩ | ⟨-, -, file, hnew, rfl⟩
      · rfl
      · exact List.forall_mem_cons.trans (and_iff_right hnew.live)
    | writeSync path offset data =>
      by_cases hfrees : FreesContents priv (.op env (.writeSync path offset data))
      · obtain ⟨i, file, hget, -, hcapacity, hwrite⟩ := freesContents_step ha.block hfrees
        rw [show mockStore.step priv (.op env (.writeSync path offset data)) = _ from hwrite] at hs
        cases hs
        refine iff_of_false (fun hall => ?_) fun h => h.2 hfrees
        exact hall _ (List.mem_set (List.getElem?_eq_some_iff.1 hget).1 _) ⟨rfl, hcapacity⟩
      · rw [and_iff_left hfrees]
        rcases mockWrite_cases hs with ⟨-, st, rfl⟩ |
          ⟨hdata, hinject, ⟨i, file, -, hget, hmem, -, hlookup, hwrite⟩ | ⟨file, -, hnew, hwrite⟩⟩
        · rfl
        · have hset : ∀ file', file.SameAs file' → ((∀ f ∈ (priv.setFile i file').files, ¬ f.Dangling) ↔
              ∀ f ∈ priv.files, ¬ f.Dangling) := fun file' hsame =>
            forall_set_iff hget (not_congr (hsame.dangling (ha file hmem)))
          rcases writeFile_cases hget hwrite with ⟨-, rfl, -⟩ | ⟨-, -, hlt, hhalf, hblock, hcap⟩ |
            ⟨file', hsame, ⟨-, rfl, -⟩ | ⟨-, -, st, rfl⟩⟩
          · rfl
          · exact absurd ⟨hdata, hinject, hhalf, file, hlookup, hblock, hhalf ▸ hlt, hcap⟩ hfrees
          · exact hset file' hsame
          · exact hset file' hsame
        · have hsize := hnew.size
          have hset : ∀ file', file.SameAs file' → ((∀ f ∈ ((priv.link file).setFile 0 file').files, ¬ f.Dangling) ↔
              ∀ f ∈ priv.files, ¬ f.Dangling) := fun file' hsame =>
            List.forall_mem_cons.trans (and_iff_right fun hgone => hnew.live ((hsame.dangling hnew.sound).1 hgone))
          rcases writeFile_cases rfl hwrite with ⟨-, -, hlt⟩ | ⟨-, -, hlt, -⟩ |
            ⟨file', hsame, ⟨-, rfl, -⟩ | ⟨-, -, st, rfl⟩⟩
          · omega
          · omega
          · exact hset file' hsame
          · exact hset file' hsame
    | readSync path offset size =>
      obtain ⟨st, rfl⟩ := mockRead_cases hs
      exact (and_iff_left id).symm
    | deleteFile path =>
      refine Iff.trans ?_ (and_iff_left id).symm
      rcases mockDelete_cases hs with ⟨-, rfl⟩ | ⟨-, ⟨file, hlookup, hlive⟩, rfl⟩
      · rfl
      · obtain ⟨pre, post, hfiles, herase⟩ := lookup_split MockFile.path hlookup
        dsimp only
        rw [herase, hfiles, List.forall_mem_append, List.forall_mem_append, List.forall_mem_cons, and_iff_right hlive]
    | getFileInfo path =>
      cases hs
      exact (and_iff_left id).symm
    | fsync path =>
      cases hs
      exact (and_iff_left id).symm
  · cases hs
    exact (and_iff_left id).symm

theorem write_failsCleanly_iff {priv : MockStoragePrivate} (ha : Allocated priv) (env : CallEnv) (path : CString)
    (offset : Nat) (data : Bytes) :
    FailsCleanly priv (.op env (.writeSync path offset data)) ↔
      ¬ OverLimit priv (.op env (.writeSync path offset data)) ∧
        ¬ FreesContents priv (.op env (.writeSync path offset data)) := by
  constructor
  · intro hclean
    refine ⟨fun hover => ?_, fun hfrees => ?_⟩
    · obtain ⟨priv', hwrite, hchanged⟩ := overLimit_fails ha hover
      exact hchanged (hclean _ _ hwrite nofun)
    · obtain ⟨priv', hwrite, hchanged⟩ := freesContents_fails ha hfrees
      exact hchanged (hclean _ _ hwrite nofun)
  · rintro ⟨hover, hfrees⟩ priv' reply h hne
    rcases mockWrite_cases h with ⟨-, st, rfl⟩ |
      ⟨hdata, hinject, ⟨i, file, hfind, hget, -, -, hlookup, hwrite⟩ | ⟨file, hlookup, hnew, hwrite⟩⟩
    · exact ⟨.refl _, rfl⟩
    · rcases writeFile_cases hget hwrite with ⟨-, rfl, -⟩ | ⟨-, -, hlt, hhalf, hblock, hcap⟩ |
        ⟨file', -, ⟨-, rfl, hmax, rfl | ⟨hsize, hlt, hgrow⟩⟩ | ⟨hok, -⟩⟩
      · exact .refl priv'
      · exact absurd ⟨hdata, hinject, hhalf, file, hlookup, hblock, hhalf ▸ hlt, hcap⟩ hfrees
      · rw [setFile_same hget]
        exact .refl _
      · refine absurd ⟨hdata, hinject, by omega, ?_⟩ hover
        rw [hlookup]
        exact ⟨hlt, hgrow⟩
      · exact absurd hok hne
    · have hsize := hnew.size
      rcases writeFile_cases rfl hwrite with ⟨-, rfl, hlt⟩ | ⟨-, -, hlt, -⟩ |
        ⟨file', -, ⟨-, rfl, hmax, rfl | ⟨-, hlt, -⟩⟩ | ⟨hok, -⟩⟩
      · omega
      · omega
      · have hmax' : priv.maxFileSize < file'.size := hmax
        refine absurd ⟨hdata, hinject, by omega, ?_⟩ hover
        rw [hlookup]
        exact ⟨hnew.count, hnew.mallocFile, hnew.mallocData (by omega)⟩
      · omega
      · exact absurd hok hne

/-- In every state that any calls on a fresh Mock backend lead to, a call that fails
leaves the files as they were, just when it is not a write that makes a file larger than
the limit or frees its contents. -/
theorem mock_fails_cleanly_iff {calls : List MockCall} {priv : MockStoragePrivate} {replies : List StorageReply}
    (hrun : mockStore.run mockStorageInit calls = some (priv, replies)) (c : MockCall) :
    FailsCleanly priv c ↔ ¬ OverLimit priv c ∧ ¬ FreesContents priv c := by
  have ha : Allocated priv := mockStore_allocated.run (fun _ hf => absurd hf List.not_mem_nil) hrun
  rcases c with ⟨env, op⟩ | ⟨readErrors, writeErrors, percent⟩
  · cases op with
    | writeSync path offset data => exact write_failsCleanly_iff ha env path offset data
    | createFile path n =>
      refine iff_of_true (fun priv' reply h hne => ?_) ⟨id, id⟩
      rcases mockCreate_cases h with ⟨-, rfl⟩ | ⟨hok, -⟩
      · exact .refl priv'
      · exact absurd hok hne
    | readSync path offset size =>
      refine iff_of_true (fun priv' reply h _ => ?_) ⟨id, id⟩
      obtain ⟨st, rfl⟩ := mockRead_cases h
      exact ⟨.refl _, rfl⟩
    | deleteFile path =>
      refine iff_of_true (fun priv' reply h hne => ?_) ⟨id, id⟩
      rcases mockDelete_cases h with ⟨-, rfl⟩ | ⟨hok, -⟩
      · exact .refl priv'
      · exact absurd hok hne
    | getFileInfo path =>
      refine iff_of_true (fun priv' reply h _ => ?_) ⟨id, id⟩
      cases h
      exact .refl priv
    | fsync path =>
      refine iff_of_true (fun priv' reply h _ => ?_) ⟨id, id⟩
      cases h
      exact .refl priv
  · refine iff_of_true (fun priv' reply h _ => ?_) ⟨id, id⟩
    cases h
    exact ⟨.refl _, rfl⟩

/-- Every second write is made to fail. -/
def withWriteErrors : MockStoragePrivate :=
  (mockStorageSetErrorInjection mockStorageInit false true 50).link ⟨cstr "a", [], 0, 0, 0, 0⟩

theorem injected_error_fails_cleanly :
    mockStorageWriteSync ⟨0, 0, 149, true, fun _ => true, fun _ => 0⟩ withWriteErrors (cstr "a") 0 [1] =
        some (withWriteErrors.withStats (StorageStats.countError .zero), .ofCode .io) ∧
      FailsCleanly withWriteErrors (.op ⟨0, 0, 149, true, fun _ => true, fun _ => 0⟩ (.writeSync (cstr "a") 0 [1])) := by
  have hrun : mockStore.run mockStorageInit [.setErrorInjection false true 50, .op .calm (.createFile (cstr "a") 0)] =
      some (withWriteErrors, [.ofCode .ok, .ofCode .ok]) := rfl
  refine ⟨rfl, (mock_fails_cleanly_iff hrun _).2 ⟨fun hover => ?_, fun hfrees => ?_⟩⟩
  · exact absurd hover.2.1 (by decide)
  · exact absurd hfrees.2.1 (by decide)

/-- A byte behind the first 2^30: the file is there, with a size over the limit, when the
write returns its error. The byte that makes a file of one byte 2^63 bytes long: its contents
are gone. -/
theorem over_limit_write_leaves_file :
    (∃ priv, mockStorageWriteSync .calm mockStorageInit (cstr "a") (2 ^ 30) [1] = some (priv, .ofCode .noSpace) ∧
      ¬ FilesKept mockStorageInit priv) ∧
    ¬ FailsCleanly mockStorageInit (.op .calm (.writeSync (cstr "a") (2 ^ 30) [1])) ∧
    (∃ priv, mockStore.run mockStorageInit [.op .calm (.createFile (cstr "a") 1)] = some (priv, [.ofCode .ok]) ∧
      ¬ FailsCleanly priv (.op .calm (.writeSync (cstr "a") (2 ^ 63 - 1) [1]))) := by
  have hover : OverLimit mockStorageInit (.op .calm (.writeSync (cstr "a") (2 ^ 30) [1])) :=
    ⟨by decide, rfl, by decide, by decide, rfl, rfl, by decide⟩
  have ha : Allocated mockStorageInit := fun _ hf => absurd hf List.not_mem_nil
  have hrun : mockStore.run mockStorageInit [.op .calm (.createFile (cstr "a") 1)] =
      some (mockStorageInit.link ⟨cstr "a", [0], 1, 1, 0, 0⟩, [.ofCode .ok]) := rfl
  refine ⟨overLimit_fails ha hover, fun hclean => ((write_failsCleanly_iff ha ..).1 hclean).1 hover, _, hrun, fun hclean => ?_⟩
  refine ((write_failsCleanly_iff (mockStore_allocated.run ha hrun) ..).1 hclean).2 ?_
  exact ⟨by decide, rfl, by decide, ⟨cstr "a", [0], 1, 1, 0, 0⟩, rfl, by decide, by decide, by decide⟩

end XDevice
