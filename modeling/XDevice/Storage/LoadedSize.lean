import XDevice.Storage.PrefixIsolation
import XDevice.Storage.MockBounds
/-!
# The size a load reports

The loads take the capacity of the buffer as `size_t *size` and hand its value on; what is
in `*size` afterwards is what was there before. The Mock backend fills the buffer with
zeros behind the stored bytes, so the caller does not learn where they end.
-/
open Lib

namespace XDevice

section
variable {σ : Type} (adapter : RaftStorageAdapter)

/-- The load that matches a save, with `*size` afterwards. -/
def RaftStorageAdapter.loadSized (w : StorageWorld σ) (env : CallEnv) (key : RaftKey) (size : Nat) :
    Option (StorageWorld σ × StorageReply × Nat) :=
  (adapter.load w env key size).map fun (w, reply) => (w, reply, size)

theorem loadSized_eq_some {w w' : StorageWorld σ} {env : CallEnv} {key : RaftKey} {size size' : Nat} {reply : StorageReply} :
    adapter.loadSized w env key size = some (w', reply, size') ↔
      adapter.load w env key size = some (w', reply) ∧ size' = size := by
  simp only [RaftStorageAdapter.loadSized, Option.map_eq_some_iff, Prod.mk.injEq, Prod.exists]
  constructor
  · rintro ⟨_, _, hload, rfl, rfl, rfl⟩
    exact ⟨hload, rfl⟩
  · rintro ⟨hload, rfl⟩
    exact ⟨_, _, hload, rfl, rfl, rfl⟩

end

/-- An empty value is not saved. -/
theorem save_empty {σ : Type} (adapter : RaftStorageAdapter) (w : StorageWorld σ) {s : RaftSave} (hs : s.value.length = 0) :
    adapter.save w s = some (w, .ofCode .invalidParam) := by
  obtain ⟨env, key, value⟩ := s
  cases key <;> exact if_pos hs

/-! ## A value in a file of its own -/

section
variable {env : CallEnv} {priv priv' : MockStoragePrivate} {path : CString} {data : Bytes} {reply : StorageReply}

/-- The first write to a path makes a file of just its bytes. -/
theorem first_write (hpath : path.length < maxPathLen) (hmiss : lookup MockFile.path priv.files path = none)
    (h : mockStorageWriteSync env priv path 0 data = some (priv', reply)) (hok : reply.code = .ok) :
    ∃ file, lookup MockFile.path priv'.files path = some file ∧ file.Ok ∧ file.content = data := by
  unfold mockStorageWriteSync at h
  split at h
  · cases h
    cases hok
  · split at h
    · cases h
      cases hok
    · rw [findFile, (indexOf_eq_none MockFile.path).2 hmiss] at h
      dsimp only at h
      rcases createNewFile_returns env priv path (add64 0 data.length) with
        ⟨hcreate, -⟩ | ⟨file, hnew, hf, hcap, hcreate⟩
      · rw [hcreate] at h
        cases h
        cases hok
      · have hsize := hnew.size
        have hlen := hf.allocated
        rw [hcreate, Option.bind_some] at h
        have h : writeFile env (priv.link file) 0 file 0 data = some (priv', reply) := h
        rw [writeFile_of_grown (if_neg (by omega))] at h
        split at h
        · cases h
          cases hok
        · obtain ⟨block, hcopy, he⟩ := Option.map_eq_some_iff.1 h
          cases he
          obtain ⟨hin, he⟩ := Option.ite_none_right_eq_some.1 hcopy
          have hfull : data.length = file.data.length := by
            unfold add64 at hcap
            omega
          have hblock : block = data := by
            cases he
            simp [writeAt, padTo, hfull]
          subst hblock
          have hname : file.path = path := hnew.path_eq hpath
          refine ⟨{ file with data := block, modifiedTime := env.now }, ?_, ⟨hfull.trans hlen, hf.fits⟩, ?_⟩
          · exact (lookup_cons MockFile.path _ _ _).trans (if_pos hname)
          · exact List.take_of_length_le (by dsimp only; omega)

/-- A read that succeeds gives the contents, and zeros behind them. -/
theorem read_content {file : MockFile} {size : Nat} (hlookup : lookup MockFile.path priv.files path = some file)
    (hf : file.Ok) (hword : size < 2 ^ 64) (h : mockStorageReadSync env priv path 0 size = some (priv', reply))
    (hok : reply.code = .ok) : reply.data = readAt 0 file.content 0 size := by
  unfold mockStorageReadSync at h
  split at h
  · cases h
    cases hok
  · split at h
    · cases h
      cases hok
    · cases hfind : findFile priv path with
      | none =>
        rw [(indexOf_eq_none MockFile.path).1 hfind] at hlookup
        cases hlookup
      | some i =>
        obtain ⟨file', hget, hlookup'⟩ := getElem?_indexOf MockFile.path hfind
        rw [hlookup] at hlookup'
        cases hlookup'
        have hsum : 0 + size < 2 ^ 64 := by omega
        obtain ⟨st, hread⟩ := readFile_spec hf hsum
        rw [hfind] at h
        dsimp only at h
        rw [hget, Option.bind_some, hread] at h
        cases h
        split at hok
        · rename_i hin
          rw [if_pos hin]
        · cases hok

end

/-! ## Main theorem -/

section
variable {w w₁ w₂ : StorageWorld (Option MockStoragePrivate)} {ptr : Nat} {priv : MockStoragePrivate} {env : CallEnv}
  {path : CString} {n size : Nat}

variable {adapter : RaftStorageAdapter} {s : RaftSave} {saved loaded : StorageReply}

theorem path_short (key : RaftKey) : (adapter.path key).length < maxPathLen := by
  rw [RaftStorageAdapter.path, snprintf, List.length_take]
  exact Nat.lt_of_le_of_lt (Nat.min_le_left ..) (by decide)

/-- After a successful save under a fresh key, a load that succeeds fills the buffer with the
value and zeros behind it, and leaves its capacity in `*size`. -/
theorem load_after_save (hw : OnlyMock w ptr priv) (hfresh : lookup MockFile.path priv.files (adapter.path s.key) = none)
    (hsave : adapter.save w s = some (w₁, saved)) (hsaved : saved.code = .ok) (hword : n < 2 ^ 64)
    (hload : adapter.loadSized w₁ env s.key n = some (w₂, loaded, size)) (hloaded : loaded.code = .ok) :
    loaded.data = readAt 0 s.value 0 n ∧ size = n := by
  obtain ⟨hload, hsize⟩ := (loadSized_eq_some adapter).1 hload
  by_cases hvalue : s.value.length = 0
  · rw [save_empty adapter w hvalue] at hsave
    cases hsave
    cases hsaved
  · rw [save_eq adapter w s hvalue] at hsave
    obtain ⟨priv₁, hwrite, hw₁⟩ := hw.of_write hvalue hsave
    obtain ⟨file, hlookup, hf, hcontent⟩ := first_write (path_short s.key) hfresh hwrite hsaved
    have hreply := hw₁.load_reply adapter env s.key n
    rw [hload, Option.map_some] at hreply
    obtain ⟨⟨priv₂, reply⟩, hread, rfl⟩ := Option.map_eq_some_iff.1 hreply.symm
    have hdata := read_content hlookup hf hword hread hloaded
    rw [hcontent] at hdata
    exact ⟨hdata, hsize⟩

/-- After a successful save under a fresh key, a load with room for `n` bytes that succeeds
leaves the size of what was stored, as far as there is room, just when there is not more
room than that. -/
theorem load_reports_stored_iff (hw : OnlyMock w ptr priv)
    (hfresh : lookup MockFile.path priv.files (adapter.path s.key) = none)
    (hsave : adapter.save w s = some (w₁, saved)) (hsaved : saved.code = .ok) (hword : n < 2 ^ 64)
    (hload : adapter.loadSized w₁ env s.key n = some (w₂, loaded, size)) (hloaded : loaded.code = .ok) :
    loaded.data = readAt 0 s.value 0 n ∧ (size = min n s.value.length ↔ n ≤ s.value.length) := by
  obtain ⟨hdata, rfl⟩ := load_after_save hw hfresh hsave hsaved hword hload hloaded
  refine ⟨hdata, ?_⟩
  omega

end

/-- A value saved as a state of "node1_" on a fresh Mock backend and loaded with room for
`n` bytes: the code, the buffer and `*size`. -/
def savedThenLoaded (value : Bytes) (n : Nat) : Option (XdeviceError × Bytes × Nat) :=
  let adapter := raftStorageAdapterInit (cstr "node1_")
  ((adapter.save oneMock ⟨.calm, .state (cstr "k"), value⟩).bind fun r =>
    adapter.loadSized r.1 .calm (.state (cstr "k")) n).map fun r => (r.2.1.code, r.2.1.data, r.2.2)

/-- Two bytes are stored as a log entry and there is room for two. -/
theorem full_load_reports : ∃ w₁ w₂ saved loaded,
    (raftStorageAdapterInit (cstr "node1_")).save oneMock ⟨.calm, .log 7, [1, 2]⟩ = some (w₁, saved) ∧
    (raftStorageAdapterInit (cstr "node1_")).loadSized w₁ .calm (.log 7) 2 = some (w₂, loaded, 2) ∧
    loaded.data = readAt 0 [1, 2] 0 2 ∧ (2 = min 2 [(1 : Byte), 2].length ↔ 2 ≤ [(1 : Byte), 2].length) := by
  have hfresh : lookup MockFile.path mockStorageInit.files ((raftStorageAdapterInit (cstr "node1_")).path (.log 7)) = none :=
    rfl
  have hsave : ∃ w₁ saved, (raftStorageAdapterInit (cstr "node1_")).save oneMock ⟨.calm, .log 7, [1, 2]⟩ = some (w₁, saved) ∧
      saved.code = .ok ∧ ∃ w₂ loaded,
        (raftStorageAdapterInit (cstr "node1_")).loadSized w₁ .calm (.log 7) 2 = some (w₂, loaded, 2) ∧ loaded.code = .ok :=
    ⟨_, _, rfl, rfl, _, _, rfl, rfl⟩
  obtain ⟨w₁, saved, hsave, hsaved, w₂, loaded, hload, hloaded⟩ := hsave
  exact ⟨w₁, w₂, saved, loaded, hsave, hload,
    load_reports_stored_iff oneMock_only hfresh hsave hsaved (by decide) hload hloaded⟩

/-- One byte and the same byte with a zero behind it, with room for four: the loads say the
same, and `*size` is four. -/
theorem trailing_zero_unseen :
    savedThenLoaded [1] 4 = some (.ok, [1, 0, 0, 0], 4) ∧ savedThenLoaded [1, 0] 4 = some (.ok, [1, 0, 0, 0], 4) ∧
      min 4 [(1 : Byte)].length = 1 ∧ min 4 [(1 : Byte), 0].length = 2 := by
  decide

end XDevice
