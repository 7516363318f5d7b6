import XDevice.Wal.Checksum
import XDevice.Wal.Engine
/-!
# Opening a log again

The checksum of the file header runs over 36 of its 40 bytes, and the checksum field
is among them. When the header is made, the field holds what was in memory; when it
is checked, it holds the checksum. Both give the same sum for one content of memory.
-/
open Lib

namespace XDevice

/-! ## The header -/

/-- The header before its checksum is stored. -/
def walHeaderFields (stack : Nat → Byte) (now fileSize : Nat) : Bytes :=
  let header := freshBlock stack walHeaderSize
  let header := writeAt 0 header 0 walMagic
  let header := writeAt 0 header 8 (leBytes 4 walVersion)
  let header := writeAt 0 header 16 (leBytes 8 now)
  writeAt 0 header 24 (leBytes 8 fileSize)

/-- Memory holds, in the place of the checksum, the one word that is its own checksum
behind the bytes before it. -/
def HoldsOwnChecksum (stack : Nat → Byte) (now fileSize : Nat) : Prop :=
  (List.range 4).map (fun i => stack (32 + i)) =
    leBytes 4 (selfChecking (crc32 ((walHeaderFields stack now fileSize).take 32))).toNat

section
variable (stack : Nat → Byte) (now fileSize : Nat)

theorem createWalHeader_eq : createWalHeader stack now fileSize =
    writeAt 0 (walHeaderFields stack now fileSize) 32
      (leBytes 4 (crc32 ((walHeaderFields stack now fileSize).take 36)).toNat) := rfl

theorem length_walHeaderFields : (walHeaderFields stack now fileSize).length = 40 := by
  have hmagic : walMagic.length = 8 := by decide
  simp [walHeaderFields, hmagic, walHeaderSize]

/-- Nothing is written to the place of the checksum before. -/
theorem walHeaderFields_memory :
    field (walHeaderFields stack now fileSize) 32 4 = (List.range 4).map fun i => stack (32 + i) := by
  have hmagic : walMagic.length = 8 := by decide
  have hlen := length_walHeaderFields stack now fileSize
  rw [field_eq_readAt (by omega)]
  refine ext_getD 0 (by simp) fun i hi => ?_
  have hi' : i < 4 := by simpa using hi
  rw [getD_readAt, if_pos hi']
  simp only [walHeaderFields, getD_writeAt, length_leBytes, hmagic]
  rw [if_neg (by omega), if_neg (by omega), if_neg (by omega), if_neg (by omega)]
  simp [freshBlock, walHeaderSize, List.getD_eq_getElem?_getD, hi', show 32 + i < 40 by omega]

theorem length_front : ((walHeaderFields stack now fileSize).take 32).length = 32 := by
  rw [List.length_take, length_walHeaderFields]
  rfl

theorem walHeaderFields_take : (walHeaderFields stack now fileSize).take 36 =
    (walHeaderFields stack now fileSize).take 32 ++ (List.range 4).map fun i => stack (32 + i) := by
  rw [← walHeaderFields_memory stack now fileSize]
  exact List.take_add (i := 32) (j := 4)

/-- The checksum that is stored. -/
def storedChecksum : BitVec 32 := crc32 ((walHeaderFields stack now fileSize).take 36)

theorem createWalHeader_take : (createWalHeader stack now fileSize).take 36 =
    (walHeaderFields stack now fileSize).take 32 ++ leBytes 4 (storedChecksum stack now fileSize).toNat := by
  have hlen := length_walHeaderFields stack now fileSize
  have hfront := length_front stack now fileSize
  have hpad : padTo 0 (walHeaderFields stack now fileSize) 32 = walHeaderFields stack now fileSize := by
    simp [padTo, hlen]
  rw [createWalHeader_eq, writeAt, hpad]
  exact List.take_left' (by rw [List.length_append, hfront, length_leBytes])

/-- The other fields are read as they were written. -/
theorem field_createWalHeader :
    field (createWalHeader stack now fileSize) 0 8 = walMagic ∧
    field (createWalHeader stack now fileSize) 8 4 = leBytes 4 walVersion ∧
    field (createWalHeader stack now fileSize) 24 8 = leBytes 8 fileSize ∧
    field (createWalHeader stack now fileSize) 32 4 = leBytes 4 (storedChecksum stack now fileSize).toNat := by
  have hmagic : walMagic.length = 8 := by decide
  have hlen : (createWalHeader stack now fileSize).length = 40 := length_createWalHeader stack now fileSize
  have hread : ∀ (l d : Bytes) (off n : Nat), d.length = n → readAt 0 (writeAt 0 l off d) off n = d := by
    rintro l d off _ rfl
    exact readAt_writeAt ..
  refine ⟨?_, ?_, ?_, ?_⟩ <;> rw [field_eq_readAt (by omega), createWalHeader_eq]
  · rw [readAt_writeAt_disjoint 0 (.inl (by omega)), walHeaderFields, readAt_writeAt_disjoint 0 (.inl (by omega)),
      readAt_writeAt_disjoint 0 (.inl (by omega)), readAt_writeAt_disjoint 0 (.inl (by omega)), hread _ _ _ _ hmagic]
  · rw [readAt_writeAt_disjoint 0 (.inl (by omega)), walHeaderFields, readAt_writeAt_disjoint 0 (.inl (by omega)),
      readAt_writeAt_disjoint 0 (.inl (by omega)), hread _ _ _ _ (length_leBytes ..)]
  · rw [readAt_writeAt_disjoint 0 (.inl (by omega)), walHeaderFields, hread _ _ _ _ (length_leBytes ..)]
  · exact hread _ _ _ _ (length_leBytes ..)

theorem walHeaderFileSize_createWalHeader : walHeaderFileSize (createWalHeader stack now fileSize) = fileSize % 2 ^ 64 := by
  rw [walHeaderFileSize, (field_createWalHeader stack now fileSize).2.2.1, ofLeBytes_leBytes, ← Nat.pow_mul 2 8 8]

/-- The header is accepted when its checksum is its own checksum. -/
theorem validateWalHeader_createWalHeader :
    validateWalHeader (createWalHeader stack now fileSize) = true ↔
      crc32 ((walHeaderFields stack now fileSize).take 32 ++ leBytes 4 (storedChecksum stack now fileSize).toNat) =
        storedChecksum stack now fileSize := by
  obtain ⟨hmagic, hversion, -, hchecksum⟩ := field_createWalHeader stack now fileSize
  have htake : (createWalHeader stack now fileSize).take (walHeaderSize - 4) = _ := createWalHeader_take stack now fileSize
  rw [validateWalHeader, hmagic, hversion, hchecksum, htake, ofLeBytes_leBytes, ofLeBytes_leBytes]
  have hone : walVersion % 256 ^ 4 = walVersion := rfl
  have hlt := (storedChecksum stack now fileSize).isLt
  rw [hone, Nat.mod_eq_of_lt (by omega)]
  simp [BitVec.toNat_inj]

/-- Both checksums are the same word just when memory held it before. -/
theorem header_accepted_iff :
    validateWalHeader (createWalHeader stack now fileSize) = true ↔ HoldsOwnChecksum stack now fileSize := by
  have hmemory : ((List.range 4).map fun i => stack (32 + i)).length = 4 := by simp
  have hstored : storedChecksum stack now fileSize =
      crc32 ((walHeaderFields stack now fileSize).take 32 ++ (List.range 4).map fun i => stack (32 + i)) := by
    rw [storedChecksum, walHeaderFields_take]
  rw [validateWalHeader_createWalHeader, HoldsOwnChecksum, hstored]
  generalize (List.range 4).map (fun i => stack (32 + i)) = memory at hmemory ⊢
  generalize (walHeaderFields stack now fileSize).take 32 = front
  have hword := (leBytes_word hmemory).symm
  generalize BitVec.ofNat 32 (ofLeBytes memory) = word at hword
  subst hword
  constructor
  · intro h
    have hself := (crc32_self_iff _ _).1 h
    rw [crc32_word_inj (h.trans rfl).symm, hself]
  · intro h
    rw [h, (crc32_self_iff _ _).2 rfl, (crc32_self_iff _ _).2 rfl]

end

/-! ## Main theorem -/

/-- What is made of a new log is accepted, as a header and when the log is opened again,
just when the memory of the header happens to hold its own checksum. -/
theorem wal_header_accepted_iff (env : WalCreateEnv) (initialSize : Nat) :
    (validateWalHeader (createWalHeader env.stack env.now initialSize) = true ↔
      HoldsOwnChecksum env.stack env.now initialSize) ∧
    ∀ file wal, xdeviceWalCreate env [] initialSize = (file, some wal) →
      ∀ env' initialSize', env'.setupOk = true → env'.mmapOk = true → initialSize' ≠ 0 →
        ((xdeviceWalCreate env' file initialSize').2.isSome = true ↔
          HoldsOwnChecksum env.stack env.now initialSize) := by
  refine ⟨header_accepted_iff .., ?_⟩
  intro file wal hcreate env' initialSize' hsetup hmmap hne
  obtain ⟨-, hpos, hmax, hfile⟩ := create_new hcreate
  obtain rfl := hfile.symm
  have hlen : (createWalHeader env.stack env.now initialSize).length = walHeaderSize :=
    length_createWalHeader env.stack env.now initialSize
  have hhead : (writeAt 0 (List.replicate initialSize 0) 0 (createWalHeader env.stack env.now initialSize)).take
      walHeaderSize = createWalHeader env.stack env.now initialSize := by
    rw [writeAt, padTo]
    simp only [List.take_zero, List.nil_append]
    exact List.take_left' hlen
  have hsize : walHeaderFileSize (createWalHeader env.stack env.now initialSize) = initialSize := by
    have hlt : initialSize < 2 ^ 64 := Nat.lt_of_le_of_lt hmax (by decide)
    rw [walHeaderFileSize_createWalHeader, Nat.mod_eq_of_lt hlt]
  have hmap : mapWal env' initialSize = some (.opened initialSize) := if_pos ⟨hmmap, hpos, hmax⟩
  have hold : (writeAt 0 (List.replicate initialSize 0) 0 (createWalHeader env.stack env.now initialSize)).length ≠ 0 := by
    rw [length_writeAt, hlen]
    simp [walHeaderSize]
  have hstart : ¬ (initialSize' = 0 ∨ env'.setupOk = false) := by simp [hne, hsetup]
  simp only [xdeviceWalCreate, createWalIf, if_neg hstart, if_neg hold, hhead, hlen, hsize, hmap, true_and]
  rw [← header_accepted_iff]
  split <;> simp [*]

/-- Time zero, 400 bytes, and `word` in memory in the place of the checksum. -/
def memoryEnv (word : Nat) : WalCreateEnv where
  setupOk := true
  ftruncateOk := true
  writeOk := true
  mmapOk := true
  now := 0
  stack i := (List.replicate 32 0 ++ leBytes 4 word).getD i 0

theorem memoryEnv_accepted :
    (validateWalHeader (createWalHeader (memoryEnv 0x6361CE25).stack 0 400) = true ↔
      HoldsOwnChecksum (memoryEnv 0x6361CE25).stack 0 400) ∧
    HoldsOwnChecksum (memoryEnv 0x6361CE25).stack 0 400 ∧
    ∃ file, xdeviceWalCreate (memoryEnv 0x6361CE25) [] 400 = (file, some (.opened 400)) ∧
      (xdeviceWalCreate (memoryEnv 0) file 1).2.isSome = true := by
  have hholds : HoldsOwnChecksum (memoryEnv 0x6361CE25).stack 0 400 := by
    unfold HoldsOwnChecksum
    decide +kernel
  obtain ⟨hvalid, hopen⟩ := wal_header_accepted_iff (memoryEnv 0x6361CE25) 400
  exact ⟨hvalid, hholds, _, rfl, (hopen _ _ rfl (memoryEnv 0) 1 rfl rfl (by decide)).2 hholds⟩

/-- In memory of zeros the header is made, and refused. -/
theorem zero_memory_refused :
    validateWalHeader (createWalHeader (fun _ => 0) 0 400) = false ∧
    ∃ file, xdeviceWalCreate (memoryEnv 0) [] 400 = (file, some (.opened 400)) ∧
      (xdeviceWalCreate (memoryEnv 0) file 400).2 = none := by
  refine ⟨by decide +kernel, _, rfl, by decide +kernel⟩

end XDevice
