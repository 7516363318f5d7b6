import XDevice.Storage.MockFailures
/-!
# Copies inside the blocks of the Mock backend

The sums `offset + size` and `new_size * 2` are taken in 64 bits and never checked. A
call whose sum wraps stays harmless as long as it is turned away before it touches a
file; one that gets as far as the memory copies outside a block, or leaves a file whose
size is not what its block holds, or whose block is gone.
-/
open Lib

namespace XDevice

/-! ## What calls promise -/

/-- Offsets and sizes of 64 bits. -/
def MockCall.Words : MockCall → Prop
  | .op _ (.createFile _ initialSize) => initialSize < 2 ^ 64
  | .op _ (.writeSync _ offset data) => offset < 2 ^ 64 ∧ data.length < 2 ^ 64
  | .op _ (.readSync _ offset size) => offset < 2 ^ 64 ∧ size < 2 ^ 64
  | _ => True

/-- `offset + size` wraps, or `new_size * 2` does where the file has to grow that far. -/
def Wraps (priv : MockStoragePrivate) : MockCall → Prop
  | .op _ (.readSync _ offset size) => 2 ^ 64 ≤ offset + size
  | .op _ (.writeSync path offset data) => 2 ^ 64 ≤ offset + data.length ∨
      ∃ file, lookup MockFile.path priv.files path = some file ∧ file.size < add64 offset data.length ∧
        file.capacity < add64 offset data.length ∧ 2 ^ 64 ≤ add64 offset data.length * 2
  | _ => False

/-- No copy leaves its block, every file stays within what is allocated for it, and if a
sum wraps the call is turned away and no file changes. -/
def StaysInBounds (priv : MockStoragePrivate) (c : MockCall) : Prop :=
  ∃ priv' reply, mockStore.step priv c = some (priv', reply) ∧ (∀ f ∈ priv'.files, f.Ok) ∧
    (Wraps priv c → reply.code ≠ .ok ∧ priv'.files = priv.files)

/-- There is a block of `newSize` bytes for the file: its own, or one of twice `newSize`
(which may wrap) from `realloc`. -/
def MockFile.HasBlock (env : CallEnv) (file : MockFile) (newSize : Nat) : Prop :=
  newSize ≤ file.capacity ∨ Reallocs (env.mallocData (mul64 newSize 2)) file.data (mul64 newSize 2)

/-- A call that gets as far as the memory of a file with a sum that wraps. A read does if
its offset is inside the file; a write if the missing file can be created, if there is a
block for it to grow in, or if it is large enough and not over the limit. -/
def ReachesMemory (priv : MockStoragePrivate) : MockCall → Prop
  | .op env (.readSync path offset size) =>
    2 ^ 64 ≤ offset + size ∧ (priv.injectReadErrors && shouldInjectError env priv) = false ∧
      ∃ file, lookup MockFile.path priv.files path = some file ∧ offset < file.size
  | .op env (.writeSync path offset data) =>
    let newSize := add64 offset data.length
    data.length ≠ 0 ∧ (priv.injectWriteErrors && shouldInjectError env priv) = false ∧
      match lookup MockFile.path priv.files path with
      | some file =>
        if file.size < newSize then
          file.HasBlock env newSize ∧ (2 ^ 64 ≤ offset + data.length ∨ file.capacity < newSize ∧ 2 ^ 64 ≤ newSize * 2)
        else 2 ^ 64 ≤ offset + data.length ∧ file.size ≤ priv.maxFileSize
      | none =>
        2 ^ 64 ≤ offset + data.length ∧ priv.fileCount < priv.maxFiles ∧ env.mallocFile = true ∧
          (0 < newSize → env.mallocData newSize = true ∧ newSize ≤ ptrdiffMax)
  | _ => False

/-! ## Growing -/

/-- The block is what was allocated, no larger than any allocation, and holds the file. -/
structure MockFile.Bounded (file : MockFile) : Prop extends file.Ok where
  block : file.capacity ≤ ptrdiffMax

section
variable {env : CallEnv} {file : MockFile} {newSize : Nat}

/-- Without a block the file is left alone, if it is not asked to shrink to nothing. -/
theorem expandFile_refused (hblock : ¬ file.HasBlock env newSize) (hlive : ¬ file.Dangling)
    (hkeep : mul64 newSize 2 = 0 → file.data = []) : expandFile env file newSize = some (file, .outOfMemory) := by
  obtain ⟨hcap, havail⟩ := not_or.1 hblock
  have hrealloc : realloc (env.mallocData (mul64 newSize 2)) env.junk file.data (mul64 newSize 2) = none := if_neg havail
  have hleft : reallocLeft file.data (mul64 newSize 2) = file.data := by
    unfold reallocLeft
    split
    · rename_i hzero
      exact (hkeep hzero).symm
    · rfl
  unfold expandFile
  rw [if_neg hcap, if_neg hlive]
  dsimp only
  rw [hrealloc]
  dsimp only
  rw [hleft]

/-- With a block the file grows to its new size, unless it is stuck on the way. -/
theorem expandFile_block (hblock : file.HasBlock env newSize) (hlt : file.size < newSize) :
    expandFile env file newSize = none ∨
      ∃ file', expandFile env file newSize = some (file', .ok) ∧ file'.path = file.path ∧ file'.size = newSize ∧
        (newSize ≤ file.capacity ∧ file'.capacity = file.capacity ∨
          file.capacity < newSize ∧ file'.capacity = mul64 newSize 2) := by
  unfold expandFile
  by_cases hcap : newSize ≤ file.capacity
  · rw [if_pos hcap, if_pos hlt]
    cases memset file.data file.size (newSize - file.size) with
    | none => exact .inl rfl
    | some data => exact .inr ⟨_, rfl, rfl, rfl, .inl ⟨hcap, rfl⟩⟩
  · have hrealloc : ∃ block, realloc (env.mallocData (mul64 newSize 2)) env.junk file.data (mul64 newSize 2) = some block :=
      ⟨_, if_pos (hblock.resolve_left hcap)⟩
    obtain ⟨block, hblock'⟩ := hrealloc
    rw [if_neg hcap]
    by_cases hlive : file.Dangling
    · rw [if_pos hlive]
      exact .inl rfl
    · rw [if_neg hlive]
      dsimp only
      rw [hblock']
      dsimp only
      cases memset block file.size (sub64 (mul64 newSize 2) file.size) with
      | none => exact .inl rfl
      | some data => exact .inr ⟨_, rfl, rfl, rfl, .inr ⟨Nat.not_le.1 hcap, rfl⟩⟩

/-- A file whose capacity need not be doubled past 64 bits grows. -/
theorem expandFile_grows (hf : file.Bounded) (hlt : file.size < newSize) (hword : newSize < 2 ^ 64)
    (hblock : file.HasBlock env newSize) (hdouble : file.capacity < newSize → newSize * 2 < 2 ^ 64) :
    ∃ file', expandFile env file newSize = some (file', .ok) ∧ file'.Bounded ∧ file'.path = file.path ∧
      file'.size = newSize := by
  have hgrow : file.CanGrow env newSize := by
    refine ⟨hf.not_dangling, ?_⟩
    by_cases hcap : newSize ≤ file.capacity
    · exact .inl hcap
    · have havail := hblock.resolve_left hcap
      rw [mul64_eq (hdouble (Nat.not_le.1 hcap))] at *
      exact .inr ⟨havail, by omega⟩
  obtain ⟨file', hexpand⟩ := expandFile_canGrow hf.allocated hlt hgrow
  obtain ⟨hpath, hsize, halloc⟩ : file'.path = file.path ∧ file'.size = newSize ∧
      (file.data.length = file.capacity → file'.data.length = file'.capacity) := by
    rcases expandFile_cases hlt hword hexpand with ⟨hcode, -⟩ | ⟨hcode, -⟩ | ⟨-, -, hgrown⟩
    · cases hcode
    · cases hcode
    · exact hgrown
  have hcap : newSize ≤ file'.capacity ∧ file'.capacity ≤ ptrdiffMax := by
    rcases expandFile_block hblock hlt with hstuck | ⟨file'', hexpand', -, -, hcapacity⟩
    · rw [hstuck] at hexpand
      cases hexpand
    · rw [hexpand] at hexpand'
      cases hexpand'
      rcases hcapacity with ⟨hcap, he⟩ | ⟨hcap, he⟩
      · rw [he]
        exact ⟨hcap, hf.block⟩
      · have havail := hblock.resolve_left (Nat.not_le.2 hcap)
        rw [mul64_eq (hdouble hcap)] at havail he
        rw [he]
        exact ⟨by omega, havail.2.1⟩
  exact ⟨file', hexpand, ⟨⟨halloc hf.allocated, hsize ▸ hcap.1⟩, hcap.2⟩, hpath, hsize⟩

end

/-! ## Writing through a file pointer -/

section
variable {env : CallEnv} {priv : MockStoragePrivate} {i : Nat} {file : MockFile} {offset : Nat} {data : Bytes}

/-- `memcpy` into a block with room for the data. -/
theorem memcpy_eq {block src : Bytes} {off : Nat} (h : off + src.length ≤ block.length) :
    memcpy block off src = some (writeAt 0 block off src) := if_pos h

/-- Without a wrap the write stays inside the file. -/
theorem writeFile_bounded (priv : MockStoragePrivate) (i : Nat) (hf : file.Bounded) (hsum : offset + data.length < 2 ^ 64)
    (hdouble : file.size < offset + data.length → file.HasBlock env (offset + data.length) →
      file.capacity < offset + data.length → (offset + data.length) * 2 < 2 ^ 64)
    (hkeep : file.size < offset + data.length → file.capacity < offset + data.length → offset + data.length = 2 ^ 63 →
      file.data = []) :
    ∃ priv' reply, writeFile env priv i file offset data = some (priv', reply) ∧
      ∃ file', file'.Bounded ∧ priv'.files = (priv.setFile i file').files := by
  have hcopy : ∀ file' : MockFile, file'.Bounded → offset + data.length ≤ file'.size →
      (if file.size < add64 offset data.length then expandFile env file (add64 offset data.length)
        else some (file, .ok)) = some (file', .ok) →
      ∃ priv' reply, writeFile env priv i file offset data = some (priv', reply) ∧
        ∃ file', file'.Bounded ∧ priv'.files = (priv.setFile i file').files := by
    intro file' hf' hsize hgrown
    have hin : offset + data.length ≤ file'.data.length := by
      have := hf'.fits
      rw [hf'.allocated]
      omega
    rw [writeFile_of_grown hgrown, memcpy_eq hin]
    split
    · exact ⟨_, _, rfl, file', hf', rfl⟩
    · refine ⟨_, _, rfl, { file' with data := writeAt 0 file'.data offset data, modifiedTime := env.now }, ?_, rfl⟩
      exact ⟨⟨(length_writeAt_inside 0 hin).trans hf'.allocated, hf'.fits⟩, hf'.block⟩
  rw [add64_eq hsum] at hcopy
  by_cases hlt : file.size < offset + data.length
  · by_cases hblock : file.HasBlock env (offset + data.length)
    · obtain ⟨file', hexpand, hf', -, hsize⟩ := expandFile_grows hf hlt hsum hblock (hdouble hlt hblock)
      exact hcopy file' hf' (Nat.le_of_eq hsize.symm) (by rw [if_pos hlt, hexpand])
    · have hcap := Nat.not_le.1 fun hle => hblock (.inl hle)
      have hexpand := expandFile_refused hblock hf.not_dangling fun hzero =>
        hkeep hlt hcap (by unfold mul64 at hzero; omega)
      rw [← add64_eq hsum] at hlt hexpand
      exact ⟨_, _, writeFile_of_failed hlt hexpand, file, hf, rfl⟩
  · exact hcopy file hf (Nat.not_lt.1 hlt) (if_neg hlt)

/-- A write that finds no block for its file, or a file over the limit, is turned away. -/
theorem writeFile_refused (hf : file.Bounded) (hfile : priv.files[i]? = some file)
    (hkeep : file.size < add64 offset data.length → file.capacity < add64 offset data.length →
      add64 offset data.length = 2 ^ 63 → file.data = [])
    (h : if file.size < add64 offset data.length then ¬ file.HasBlock env (add64 offset data.length)
      else priv.maxFileSize < file.size) :
    ∃ reply, writeFile env priv i file offset data = some (priv, reply) ∧ reply.code ≠ .ok := by
  split at h
  · rename_i hlt
    refine ⟨.ofCode .outOfMemory, ?_, nofun⟩
    have hword := add64_lt offset data.length
    have hcap := Nat.not_le.1 fun hle => h (.inl hle)
    have hexpand := expandFile_refused h hf.not_dangling fun hzero => hkeep hlt hcap (by unfold mul64 at hzero; omega)
    rw [writeFile_of_failed hlt hexpand, setFile_same hfile]
  · rename_i hlt
    refine ⟨.ofCode .noSpace, ?_, nofun⟩
    rw [writeFile_of_grown (if_neg hlt), if_pos h, setFile_same hfile]

/-- A write that grows its file changes it, whatever comes of it. -/
theorem writeFile_changes {priv' : MockStoragePrivate} {reply : StorageReply} (hfile : priv.files[i]? = some file)
    (hlt : file.size < add64 offset data.length) (hblock : file.HasBlock env (add64 offset data.length))
    (h : writeFile env priv i file offset data = some (priv', reply)) : priv'.files ≠ priv.files := by
  rcases expandFile_block hblock hlt with hstuck | ⟨file', hexpand, -, hsize, -⟩
  · unfold writeFile at h
    dsimp only at h
    rw [if_pos hlt, hstuck] at h
    cases h
  · have hset : ∃ file'', file''.size = add64 offset data.length ∧ priv'.files = priv.files.set i file'' := by
      rw [writeFile_of_grown ((if_pos hlt).trans hexpand)] at h
      split at h
      · cases h
        exact ⟨file', hsize, rfl⟩
      · obtain ⟨block, -, he⟩ := Option.map_eq_some_iff.1 h
        cases he
        exact ⟨{ file' with data := block, modifiedTime := env.now }, hsize, rfl⟩
    obtain ⟨file'', hsize', hfiles⟩ := hset
    intro he
    rw [hfiles] at he
    have hget := congrArg (fun files => files[i]?) he
    rw [hfile] at hget
    rw [List.getElem?_set_self (List.getElem?_eq_some_iff.1 hfile).1] at hget
    cases hget
    omega

/-- Past the end of 64 bits nothing can be copied. -/
theorem writeFile_stuck (hf : file.Bounded) (hsum : 2 ^ 64 ≤ offset + data.length)
    (hsize : ¬ file.size < add64 offset data.length) (hmax : file.size ≤ priv.maxFileSize) :
    writeFile env priv i file offset data = none := by
  have hblock := hf.block
  have hout : memcpy file.data offset data = none := if_neg (by rw [hf.allocated]; unfold ptrdiffMax at hblock; omega)
  rw [writeFile_of_grown (if_neg hsize), if_neg (Nat.not_lt.2 hmax), hout]
  rfl

end

/-- A file is created, or something is in the way. -/
theorem createNewFile_returns (env : CallEnv) (priv : MockStoragePrivate) (path : CString) (n : Nat) :
    createNewFile env priv path n = some none ∧ ¬ (priv.fileCount < priv.maxFiles ∧ env.mallocFile = true ∧
        (0 < n → env.mallocData n = true ∧ n ≤ ptrdiffMax)) ∨
      ∃ file, NewFile env priv path n file ∧ file.Bounded ∧ file.capacity = n ∧
        createNewFile env priv path n = some (some (priv.link file)) := by
  unfold createNewFile
  split
  · rename_i hcount
    exact .inl ⟨rfl, fun h => absurd h.1 (Nat.not_lt.2 hcount)⟩
  · rename_i hcount
    split
    · rename_i hmalloc
      exact .inl ⟨rfl, fun h => hmalloc h.2.1⟩
    · rename_i hmalloc
      have hmalloc : env.mallocFile = true := by simpa using hmalloc
      dsimp only
      split
      · rename_i hpos
        by_cases havail : env.mallocData n = true ∧ n ≤ ptrdiffMax
        · have hblock : malloc (env.mallocData n) env.junk n = some (freshBlock env.junk n) := if_pos havail
          have hset : memset (freshBlock env.junk n) 0 n = _ := memset_eq (by simp)
          have hlen : (writeAt 0 (freshBlock env.junk n) 0 (List.replicate n 0)).length = n :=
            (length_writeAt_inside 0 (by simp)).trans (length_freshBlock ..)
          rw [hblock]
          dsimp only
          rw [hset]
          exact .inr ⟨_, ⟨rfl, rfl, hlen, rfl, Nat.not_le.1 hcount, hmalloc, fun _ => havail⟩,
            ⟨⟨hlen, Nat.le_refl n⟩, havail.2⟩, rfl, rfl⟩
        · have hblock : malloc (env.mallocData n) env.junk n = none := if_neg havail
          rw [hblock]
          exact .inl ⟨rfl, fun h => havail (h.2.2 hpos)⟩
      · rename_i hzero
        obtain rfl := Nat.eq_zero_of_not_pos hzero
        exact .inr ⟨_, ⟨rfl, rfl, rfl, rfl, Nat.not_le.1 hcount, hmalloc, fun hpos => absurd hpos hzero⟩,
          ⟨⟨rfl, Nat.le_refl 0⟩, Nat.zero_le _⟩, rfl, rfl⟩

/-! ## Calls -/

section
variable {env : CallEnv} {priv : MockStoragePrivate} {path : CString} {offset : Nat}

/-- A read through a file pointer copies from inside the block, unless the sum wraps. -/
theorem readFile_bounded {file : MockFile} {size : Nat} (hf : file.Bounded)
    (h : offset + size < 2 ^ 64 ∨ file.size ≤ offset) :
    ∃ st reply, readFile env priv file offset size = some (priv.withStats st, reply) ∧
      (file.size ≤ offset → reply.code ≠ .ok) := by
  unfold readFile
  by_cases hoffset : file.size ≤ offset
  · rw [if_pos hoffset]
    exact ⟨priv.stats, _, rfl, nofun⟩
  · have hsum := h.resolve_right hoffset
    have hfit := hf.fits
    have hin : offset + (if file.size < add64 offset size then file.size - offset else size) ≤ file.data.length := by
      rw [hf.allocated, add64_eq hsum]
      split <;> omega
    rw [if_neg hoffset]
    dsimp only
    rw [memcpyFrom, if_pos hin]
    exact ⟨_, _, rfl, fun h => absurd h hoffset⟩

/-- With a sum that wraps the end of the file is not seen. -/
theorem readFile_stuck {file : MockFile} {size : Nat} (hf : file.Bounded) (hoffset : offset < file.size)
    (hword : size < 2 ^ 64) (hsum : 2 ^ 64 ≤ offset + size) : readFile env priv file offset size = none := by
  have hblock := hf.block
  have hfit := hf.fits
  have hwrap : ¬ file.size < add64 offset size := by
    unfold add64
    unfold ptrdiffMax at hblock
    omega
  unfold readFile
  rw [if_neg (Nat.not_le.2 hoffset)]
  dsimp only
  rw [if_neg hwrap, memcpyFrom, if_neg (by rw [hf.allocated]; unfold ptrdiffMax at hblock; omega)]
  rfl

/-- What a call comes to that stays in bounds. -/
def Harmless (priv : MockStoragePrivate) (c : MockCall) : Prop :=
  ∃ priv' reply, mockStore.step priv c = some (priv', reply) ∧ (∀ f ∈ priv'.files, f.Bounded) ∧
    (Wraps priv c → reply.code ≠ .ok ∧ priv'.files = priv.files)

theorem Harmless.stays {c : MockCall} (h : Harmless priv c) : StaysInBounds priv c := by
  obtain ⟨priv', reply, hstep, hfiles, hwrap⟩ := h
  exact ⟨priv', reply, hstep, fun f hf => (hfiles f hf).toOk, hwrap⟩

variable (hall : ∀ f ∈ priv.files, f.Bounded)
include hall

theorem create_harmless (env : CallEnv) (path : CString) (n : Nat) : Harmless priv (.op env (.createFile path n)) := by
  have hreturns : ∃ priv' reply, mockStorageCreateFile env priv path n = some (priv', reply) ∧
      ∀ f ∈ priv'.files, f.Bounded := by
    unfold mockStorageCreateFile
    cases findFile priv path with
    | some i => exact ⟨priv, _, rfl, hall⟩
    | none =>
      rcases createNewFile_returns env priv path n with ⟨hcreate, -⟩ | ⟨file, -, hf, -, hcreate⟩
      · dsimp only
        rw [hcreate]
        exact ⟨priv, _, rfl, hall⟩
      · dsimp only
        rw [hcreate]
        exact ⟨_, _, rfl, List.forall_mem_cons.2 ⟨hf, hall⟩⟩
  obtain ⟨priv', reply, hcreate, hfiles⟩ := hreturns
  exact ⟨priv', reply, hcreate, hfiles, False.elim⟩

theorem read_harmless {size : Nat} (h : ¬ ReachesMemory priv (.op env (.readSync path offset size))) :
    Harmless priv (.op env (.readSync path offset size)) := by
  have hreturns : ∃ st reply, mockStorageReadSync env priv path offset size = some (priv.withStats st, reply) ∧
      (2 ^ 64 ≤ offset + size → reply.code ≠ .ok) := by
    unfold mockStorageReadSync
    split
    · exact ⟨priv.stats, _, rfl, fun _ => nofun⟩
    · split
      · exact ⟨_, _, rfl, fun _ => nofun⟩
      · rename_i hinject
        cases hfind : findFile priv path with
        | none => exact ⟨priv.stats, _, rfl, fun _ => nofun⟩
        | some i =>
          obtain ⟨file, hget, hlookup⟩ := getElem?_indexOf MockFile.path hfind
          have hsum : offset + size < 2 ^ 64 ∨ file.size ≤ offset := by
            by_contra hwrap
            obtain ⟨hsum, hoffset⟩ := not_or.1 hwrap
            exact h ⟨Nat.not_lt.1 hsum, by simpa using hinject, file, hlookup, Nat.not_le.1 hoffset⟩
          obtain ⟨st, reply, hread, hpast⟩ :=
            readFile_bounded (hall file (mem_of_lookup _ hlookup)) hsum
          dsimp only
          rw [hget, Option.bind_some, hread]
          exact ⟨st, reply, rfl, fun hwrap => hpast (hsum.resolve_left (Nat.not_lt.2 hwrap))⟩
  obtain ⟨st, reply, hread, hcode⟩ := hreturns
  exact ⟨_, reply, hread, hall, fun hwrap => ⟨hcode hwrap, rfl⟩⟩

theorem read_reaches {size : Nat} (hw : (MockCall.op env (.readSync path offset size)).Words)
    (h : ReachesMemory priv (.op env (.readSync path offset size))) :
    mockStore.step priv (.op env (.readSync path offset size)) = none := by
  obtain ⟨hsum, hinject, file, hlookup, hoffset⟩ := h
  obtain ⟨hword, hsize⟩ := hw
  show mockStorageReadSync env priv path offset size = none
  unfold mockStorageReadSync
  rw [if_neg (by omega), hinject, if_neg Bool.false_ne_true]
  cases hfind : findFile priv path with
  | none =>
    rw [(indexOf_eq_none MockFile.path).1 hfind] at hlookup
    cases hlookup
  | some i =>
    obtain ⟨file', hget, hlookup'⟩ := getElem?_indexOf MockFile.path hfind
    rw [hlookup] at hlookup'
    cases hlookup'
    dsimp only
    rw [hget, Option.bind_some, readFile_stuck (hall file (mem_of_lookup _ hlookup)) hoffset hsize hsum]

/-- A write to a file that is there. -/
theorem writeFile_harmless {i : Nat} {file : MockFile} {data : Bytes} (hget : priv.files[i]? = some file)
    (hlookup : lookup MockFile.path priv.files path = some file)
    (hkeep : file.size < add64 offset data.length → file.capacity < add64 offset data.length →
      add64 offset data.length = 2 ^ 63 → file.data = [])
    (h : ¬ if file.size < add64 offset data.length then
        file.HasBlock env (add64 offset data.length) ∧ (2 ^ 64 ≤ offset + data.length ∨
          file.capacity < add64 offset data.length ∧ 2 ^ 64 ≤ add64 offset data.length * 2)
      else 2 ^ 64 ≤ offset + data.length ∧ file.size ≤ priv.maxFileSize) :
    ∃ priv' reply, writeFile env priv i file offset data = some (priv', reply) ∧ (∀ f ∈ priv'.files, f.Bounded) ∧
      (Wraps priv (.op env (.writeSync path offset data)) → reply.code ≠ .ok ∧ priv'.files = priv.files) := by
  by_cases hrefused : if file.size < add64 offset data.length then ¬ file.HasBlock env (add64 offset data.length)
      else priv.maxFileSize < file.size
  · obtain ⟨reply, hwrite, hcode⟩ := writeFile_refused (hall file (mem_of_lookup _ hlookup)) hget hkeep hrefused
    exact ⟨priv, reply, hwrite, hall, fun _ => ⟨hcode, rfl⟩⟩
  · -- it is not turned away, so nothing wraps
    have hnowrap : ¬ Wraps priv (.op env (.writeSync path offset data)) ∧ offset + data.length < 2 ^ 64 := by
      have hsum : offset + data.length < 2 ^ 64 ∧ (file.size < add64 offset data.length →
          ¬ (file.capacity < add64 offset data.length ∧ 2 ^ 64 ≤ add64 offset data.length * 2)) := by
        split at h
        · rename_i hlt
          rw [if_pos hlt, not_not] at hrefused
          obtain ⟨hsum, hdouble⟩ := not_or.1 fun hwrap => h ⟨hrefused, hwrap⟩
          exact ⟨Nat.not_le.1 hsum, fun _ => hdouble⟩
        · rename_i hlt
          rw [if_neg hlt] at hrefused
          exact ⟨Nat.not_le.1 fun hsum => h ⟨hsum, Nat.not_lt.1 hrefused⟩, fun hlt' => absurd hlt' hlt⟩
      refine ⟨?_, hsum.1⟩
      rintro (hwrap | ⟨file', hlookup', hlt, hdouble⟩)
      · exact absurd hsum.1 (Nat.not_lt.2 hwrap)
      · rw [hlookup] at hlookup'
        cases hlookup'
        exact hsum.2 hlt hdouble
    obtain ⟨hnowrap, hsum⟩ := hnowrap
    have hdouble : file.size < offset + data.length → file.HasBlock env (offset + data.length) →
        file.capacity < offset + data.length → (offset + data.length) * 2 < 2 ^ 64 := by
      intro hlt _ hcap
      rw [← add64_eq hsum] at hlt hcap ⊢
      exact Nat.not_le.1 fun hle => hnowrap (.inr ⟨file, hlookup, hlt, hcap, hle⟩)
    obtain ⟨priv', reply, hwrite, file', hf', hfiles⟩ :=
      writeFile_bounded priv i (hall file (mem_of_lookup _ hlookup)) hsum hdouble (add64_eq hsum ▸ hkeep)
    refine ⟨priv', reply, hwrite, ?_, fun hwrap => absurd hwrap hnowrap⟩
    rw [hfiles]
    exact forall_setFile hall hf'

theorem write_harmless {data : Bytes} (h : ¬ ReachesMemory priv (.op env (.writeSync path offset data)))
    (hfrees : ¬ FreesContents priv (.op env (.writeSync path offset data))) :
    Harmless priv (.op env (.writeSync path offset data)) := by
  unfold Harmless
  show ∃ priv' reply, mockStorageWriteSync env priv path offset data = some (priv', reply) ∧ _
  unfold mockStorageWriteSync
  split
  · exact ⟨priv, _, rfl, hall, fun _ => ⟨nofun, rfl⟩⟩
  · rename_i hdata
    split
    · exact ⟨_, _, rfl, hall, fun _ => ⟨nofun, rfl⟩⟩
    · rename_i hinject
      have hinject : (priv.injectWriteErrors && shouldInjectError env priv) = false := by simpa using hinject
      have hreach : _ := fun hfile => h ⟨hdata, hinject, hfile⟩
      cases hfind : findFile priv path with
      | some i =>
        obtain ⟨file, hget, hlookup⟩ := getElem?_indexOf MockFile.path hfind
        rw [hlookup] at hreach
        dsimp only at hreach ⊢
        rw [hget, Option.bind_some]
        refine writeFile_harmless hall hget hlookup (fun hlt hcap hhalf => ?_) hreach
        by_contra hblock
        exact hfrees ⟨hdata, hinject, hhalf, file, hlookup, hblock, hhalf ▸ hlt, hhalf ▸ hcap⟩
      | none =>
        have hlookup := (indexOf_eq_none MockFile.path).1 hfind
        rw [hlookup] at hreach
        dsimp only at hreach ⊢
        rcases createNewFile_returns env priv path (add64 offset data.length) with
          ⟨hcreate, -⟩ | ⟨file, hnew, hf, -, hcreate⟩
        · rw [hcreate]
          exact ⟨priv, _, rfl, hall, fun _ => ⟨nofun, rfl⟩⟩
        · have hsum : offset + data.length < 2 ^ 64 :=
            Nat.not_le.1 fun hwrap => hreach ⟨hwrap, hnew.count, hnew.mallocFile, hnew.mallocData⟩
          have hnowrap : ¬ Wraps priv (.op env (.writeSync path offset data)) := by
            rintro (hwrap | ⟨file', hlookup', -⟩)
            · exact absurd hsum (Nat.not_lt.2 hwrap)
            · rw [hlookup] at hlookup'
              cases hlookup'
          have hsize := hnew.size
          rw [add64_eq hsum] at hsize
          obtain ⟨priv', reply, hwrite, file', hf', hfiles⟩ := writeFile_bounded (priv.link file) 0 hf
            hsum (fun hlt => absurd hlt (by omega)) fun hlt => absurd hlt (by omega)
          rw [hcreate]
          refine ⟨priv', reply, hwrite, ?_, fun hwrap => absurd hwrap hnowrap⟩
          rw [hfiles]
          exact forall_setFile (List.forall_mem_cons.2 ⟨hf, hall⟩) hf'

omit hall in
/-- A write through the pointer of a new file leaves one file more. -/
theorem length_writeFile_link {priv' : MockStoragePrivate} {file : MockFile} {data : Bytes} {reply : StorageReply}
    (h : writeFile env (priv.link file) 0 file offset data = some (priv', reply)) :
    priv'.files.length = priv.files.length + 1 := by
  obtain ⟨file', st, rfl, -⟩ := writeFile_effect rfl h
  rfl

/-- A write whose sum wraps is stuck, or a file changes. -/
theorem write_reaches {data : Bytes} (h : ReachesMemory priv (.op env (.writeSync path offset data))) :
    Wraps priv (.op env (.writeSync path offset data)) ∧ ∀ priv' reply,
      mockStorageWriteSync env priv path offset data = some (priv', reply) → priv'.files ≠ priv.files := by
  obtain ⟨hdata, hinject, h⟩ := h
  unfold mockStorageWriteSync
  rw [if_neg hdata, hinject, if_neg Bool.false_ne_true]
  cases hfind : findFile priv path with
  | some i =>
    obtain ⟨file, hget, hlookup⟩ := getElem?_indexOf MockFile.path hfind
    have hf := hall file (mem_of_lookup _ hlookup)
    rw [hlookup] at h
    dsimp only at h ⊢
    rw [hget, Option.bind_some]
    split at h
    · rename_i hlt
      refine ⟨h.2.imp_right fun ⟨hcap, hdouble⟩ => ⟨file, hlookup, hlt, hcap, hdouble⟩, fun priv' reply hwrite => ?_⟩
      exact writeFile_changes hget hlt h.1 hwrite
    · rename_i hlt
      refine ⟨.inl h.1, fun priv' reply hwrite => ?_⟩
      rw [writeFile_stuck hf h.1 hlt h.2] at hwrite
      cases hwrite
  | none =>
    have hlookup := (indexOf_eq_none MockFile.path).1 hfind
    rw [hlookup] at h
    obtain ⟨hsum, hcreates⟩ := h
    refine ⟨.inl hsum, fun priv' reply hwrite => ?_⟩
    dsimp only at hwrite
    rcases createNewFile_returns env priv path (add64 offset data.length) with
      ⟨-, hnot⟩ | ⟨file, hnew, -, -, hcreate⟩
    · exact absurd hcreates hnot
    · rw [hcreate] at hwrite
      intro hsame
      have hlength := length_writeFile_link hwrite
      rw [hsame] at hlength
      omega

theorem harmless_of_not_reaches {c : MockCall} (h : ¬ ReachesMemory priv c) (hfrees : ¬ FreesContents priv c) :
    Harmless priv c := by
  rcases c with ⟨env, op⟩ | ⟨readErrors, writeErrors, percent⟩
  · cases op with
    | createFile path n => exact create_harmless hall env path n
    | writeSync path offset data => exact write_harmless hall h hfrees
    | readSync path offset size => exact read_harmless hall h
    | deleteFile path =>
      obtain ⟨r, hdelete⟩ : ∃ r, mockStorageDeleteFile priv path = some r := by
        unfold mockStorageDeleteFile removeFile
        cases hlookup : lookup MockFile.path priv.files path with
        | none => exact ⟨_, rfl⟩
        | some file =>
          dsimp only
          rw [if_neg (hall file (mem_of_lookup _ hlookup)).not_dangling]
          exact ⟨_, rfl⟩
      refine ⟨r.1, r.2, hdelete, ?_, False.elim⟩
      rcases mockDelete_cases hdelete with ⟨-, he⟩ | ⟨-, -, he⟩
      · rw [he]
        exact hall
      · rw [he]
        exact fun f hf => hall f (List.mem_of_mem_eraseP hf)
    | getFileInfo path => exact ⟨priv, _, rfl, hall, False.elim⟩
    | fsync path => exact ⟨priv, _, rfl, hall, False.elim⟩
  · exact ⟨_, _, rfl, hall, False.elim⟩

theorem not_stays_of_reaches {c : MockCall} (hw : c.Words) (h : ReachesMemory priv c) : ¬ StaysInBounds priv c := by
  rintro ⟨priv', reply, hstep, -, hrefused⟩
  rcases c with ⟨env, op⟩ | ⟨readErrors, writeErrors, percent⟩
  · cases op with
    | writeSync path offset data =>
      obtain ⟨hwrap, hchanges⟩ := write_reaches hall h
      exact hchanges priv' reply hstep (hrefused hwrap).2
    | readSync path offset size =>
      rw [read_reaches hall hw h] at hstep
      cases hstep
    | createFile | deleteFile | getFileInfo | fsync => exact h
  · exact h

theorem not_stays_of_frees {c : MockCall} (h : FreesContents priv c) : ¬ StaysInBounds priv c := by
  rintro ⟨priv', reply, hstep, hfiles, -⟩
  rcases c with ⟨env, op⟩ | ⟨readErrors, writeErrors, percent⟩
  · cases op with
    | writeSync path offset data =>
      obtain ⟨i, file, hget, -, hcapacity, hwrite⟩ := freesContents_step (fun f hf _ => (hall f hf).allocated) h
      have hstep : mockStorageWriteSync env priv path offset data = some (priv', reply) := hstep
      rw [hwrite] at hstep
      cases hstep
      exact (hfiles _ (List.mem_set (List.getElem?_eq_some_iff.1 hget).1 _)).not_dangling ⟨rfl, hcapacity⟩
    | createFile | readSync | deleteFile | getFileInfo | fsync => exact h
  · exact h

end

/-! ## Main theorem -/

/-- In a run of calls with 64-bit offsets and sizes on a fresh Mock backend every call stays in
bounds, just when no call gets as far as the memory of a file with a sum that wraps, or has
`realloc` free its block. -/
theorem mock_stays_in_bounds_iff (calls : List MockCall) (hwords : ∀ c ∈ calls, c.Words) :
    mockStore.Along StaysInBounds mockStorageInit calls ↔
      mockStore.Along (fun priv c => ¬ ReachesMemory priv c ∧ ¬ FreesContents priv c) mockStorageInit calls := by
  have hiff : ∀ priv c, (∀ f ∈ priv.files, f.Bounded) → c.Words →
      (StaysInBounds priv c ↔ ¬ ReachesMemory priv c ∧ ¬ FreesContents priv c) := fun priv c hall hw =>
    ⟨fun hstays => ⟨fun hreach => not_stays_of_reaches hall hw hreach hstays, fun hfrees => not_stays_of_frees hall hfrees hstays⟩,
      fun h => (harmless_of_not_reaches hall h.1 h.2).stays⟩
  refine Machine.along_iff (I := fun priv => ∀ f ∈ priv.files, f.Bounded) (fun priv c priv' reply hall hw hstays hs => ?_)
    hiff (fun _ hf => absurd hf List.not_mem_nil) hwords
  obtain ⟨hreach, hfrees⟩ := (hiff priv c hall hw).1 hstays
  obtain ⟨priv'', reply', hs', hall', -⟩ := harmless_of_not_reaches hall hreach hfrees
  rw [hs] at hs'
  cases hs'
  exact hall'

/-- The sum of the read wraps, but its offset is behind the end of the file. -/
theorem wrapped_read_turned_away :
    mockStore.Along StaysInBounds mockStorageInit
      [.op .calm (.createFile (cstr "a") 4), .op .calm (.writeSync (cstr "b") 0 [7]),
        .op .calm (.readSync (cstr "a") (2 ^ 64 - 1) 2)] := by
  refine (mock_stays_in_bounds_iff _ ?_).2 ⟨⟨id, id⟩, fun _ _ hs => ?_⟩
  · simp [MockCall.Words]
  · cases hs
    refine ⟨⟨fun h => absurd h.2.2.1 (by decide), fun h => absurd h.2.2.1 (by decide)⟩, fun _ _ hs => ?_⟩
    cases hs
    refine ⟨⟨?_, id⟩, fun _ _ _ => trivial⟩
    rintro ⟨-, -, file, hlookup, hoffset⟩
    cases hlookup
    exact absurd hoffset (by decide)

/-- Two bytes at the last offset: their sum wraps to one, the file is made with one byte, and
the copy goes before and into it. One byte at offset 2^63 of a file of one byte: the
capacity wraps to two. One byte before that, it wraps to 0: the block is freed, and the next
read is stuck. -/
theorem wrapped_write_out_of_bounds :
    mockStore.step mockStorageInit (.op .calm (.writeSync (cstr "a") (2 ^ 64 - 1) [1, 2])) = none ∧
    ¬ mockStore.Along StaysInBounds mockStorageInit [.op .calm (.writeSync (cstr "a") (2 ^ 64 - 1) [1, 2])] ∧
    ((mockStore.run mockStorageInit
        [.op .calm (.createFile (cstr "a") 1), .op .calm (.writeSync (cstr "a") (2 ^ 63) [1])]).map fun r =>
      (r.1.files.map fun f => (f.size, f.capacity, f.data.length), r.2.map (·.code))) =
        some ([(2 ^ 63 + 1, 2, 2)], [.ok, .noSpace]) ∧
    ((mockStore.run mockStorageInit
        [.op .calm (.createFile (cstr "a") 1), .op .calm (.writeSync (cstr "a") (2 ^ 63 - 1) [1])]).map fun r =>
      (r.1.files.map fun f => (f.size, f.capacity, f.data.length), r.2.map (·.code),
        (mockStorageReadSync .calm r.1 (cstr "a") 0 1).isSome)) =
        some ([(1, 1, 0)], [.ok, .outOfMemory], false) := by
  have hstuck : mockStore.step mockStorageInit (.op .calm (.writeSync (cstr "a") (2 ^ 64 - 1) [1, 2])) = none := by decide
  refine ⟨hstuck, ?_, by decide, by decide⟩
  rintro ⟨⟨priv', reply, hstep, -⟩, -⟩
  rw [hstuck] at hstep
  cases hstep

end XDevice
