import XDevice.Wal.Checksum
import XDevice.Wal.Engine
/-!
# The checksum of a record

The checksum of a record header runs over all of it but the padding at its end. Its own
four bytes are among them, and hold what the stack held before when the sum is taken. So
the stored checksum says as much about that memory as about the record.
-/
open Lib

namespace XDevice

/-! ## Words among other bytes -/

theorem crcRegister_injective (data : Bytes) : Function.Injective fun crc => crcRegister crc data := by
  induction data with
  | nil => exact fun _ _ h => h
  | cons byte data ih =>
    intro crc crc' h
    have hbyte : crc32Update crc byte = crc32Update crc' byte := ih h
    rw [crc32Update_eq, crc32Update_eq] at hbyte
    exact (BitVec.xor_left_inj _).1 (steps_injective 8 hbyte)

/-- At most four bytes can be read off the register behind them. -/
theorem crcRegister_window {crc : BitVec 32} {word word' : Bytes} (hlen : word'.length = word.length)
    (hfour : word.length ≤ 4) (h : crcRegister crc word = crcRegister crc word') : word = word' := by
  -- both are filled up to four bytes in the same way
  have hfill : crcRegister crc (word ++ List.replicate (4 - word.length) 0) =
      crcRegister crc (word' ++ List.replicate (4 - word.length) 0) := by
    rw [crcRegister_append, crcRegister_append, h]
  rw [← leBytes_word (b := word ++ _) (by simp; omega), ← leBytes_word (b := word' ++ _) (by simp; omega),
    crcRegister_word, crcRegister_word] at hfill
  have hsame := (BitVec.xor_right_inj _).1 (steps_injective 32 hfill)
  have hbytes := congrArg (fun x : BitVec 32 => leBytes 4 x.toNat) hsame
  rw [leBytes_word (by simp; omega), leBytes_word (by simp; omega)] at hbytes
  exact (List.append_inj hbytes hlen.symm).1

/-- At most four bytes between others can be read off the checksum. -/
theorem crc32_between_inj {front word word' rest : Bytes} (hlen : word'.length = word.length) (hfour : word.length ≤ 4) :
    crc32 (front ++ (word ++ rest)) = crc32 (front ++ (word' ++ rest)) ↔ word = word' := by
  refine ⟨fun h => ?_, fun h => by rw [h]⟩
  rw [crc32_eq, crc32_eq, BitVec.xor_left_inj, crcRegister_append, crcRegister_append, crcRegister_append,
    crcRegister_append] at h
  exact crcRegister_window hlen hfour (crcRegister_injective rest h)

/-! ## The record header -/

/-- The stored fields of a record header but the checksum: number and length before it,
time, kind and name behind it. The padding is no field. -/
def recordFields (header : Bytes) : Bytes := field header 0 12 ++ field header 16 140

def recordChecksum (header : Bytes) : Bytes := field header 12 4

/-- The record header an append stored at `offset`. -/
def headerAt (region : Bytes) (offset : Nat) : Bytes := field region offset walRecordHeaderSize

/-- The record header before its checksum is stored. -/
def walRecordFields (stack : Nat → Byte) (lsn now : Nat) (deviceName : CString) (opType : XdeviceWalOpType)
    (data : Bytes) : Bytes :=
  let header := freshBlock stack walRecordHeaderSize
  let header := writeAt 0 header 0 (leBytes 8 lsn)
  let header := writeAt 0 header 8 (leBytes 4 data.length)
  let header := writeAt 0 header 16 (leBytes 8 now)
  let header := writeAt 0 header 24 (leBytes 4 opType.value.toNat)
  writeAt 0 header 28 (deviceNameBytes deviceName)

section
variable (stack : Nat → Byte) (lsn now : Nat) (deviceName : CString) (opType : XdeviceWalOpType) (data : Bytes)

/-- The sum that is stored: that of the header, and that of the payload if there is one. -/
def storedSum : BitVec 32 :=
  let header := crc32 ((walRecordFields stack lsn now deviceName opType data).take 156)
  if 0 < data.length then header ^^^ crc32 data else header

theorem walRecordHeader_eq : walRecordHeader stack lsn now deviceName opType data =
    writeAt 0 (walRecordFields stack lsn now deviceName opType data) 12
      (leBytes 4 (storedSum stack lsn now deviceName opType data).toNat) := rfl

theorem length_walRecordFields : (walRecordFields stack lsn now deviceName opType data).length = 160 := by
  simp [walRecordFields, length_deviceNameBytes, walRecordHeaderSize]

/-- Nothing is written to the place of the checksum before. -/
theorem walRecordFields_memory : field (walRecordFields stack lsn now deviceName opType data) 12 4 =
    [stack 12, stack 13, stack 14, stack 15] := by
  have hname := length_deviceNameBytes deviceName
  have hblock : (freshBlock stack walRecordHeaderSize).length = 160 := length_freshBlock ..
  unfold walRecordFields
  dsimp only
  simp (disch := simp [hblock, hname]) only [field_writeAt_disjoint]
  rfl

theorem walRecordFields_take : (walRecordFields stack lsn now deviceName opType data).take 156 =
    field (walRecordFields stack lsn now deviceName opType data) 0 12 ++
      ([stack 12, stack 13, stack 14, stack 15] ++ field (walRecordFields stack lsn now deviceName opType data) 16 140) := by
  rw [← walRecordFields_memory stack lsn now deviceName opType data, ← field_add 12 4 140, ← field_add 0 12 144]
  rfl

theorem recordFields_walRecordHeader : recordFields (walRecordHeader stack lsn now deviceName opType data) =
    recordFields (walRecordFields stack lsn now deviceName opType data) := by
  have hlen := length_walRecordFields stack lsn now deviceName opType data
  rw [recordFields, walRecordHeader_eq, field_writeAt_disjoint (by omega) (.inl (by omega)),
    field_writeAt_disjoint (by omega) (.inr (by rw [length_leBytes]))]
  rfl

theorem recordChecksum_walRecordHeader : recordChecksum (walRecordHeader stack lsn now deviceName opType data) =
    leBytes 4 (storedSum stack lsn now deviceName opType data).toNat := by
  rw [recordChecksum, walRecordHeader_eq, field_writeAt (length_leBytes ..)]

end

/-- The same word has the same bytes. -/
theorem leBytes_four_inj {x y : BitVec 32} : leBytes 4 x.toNat = leBytes 4 y.toNat ↔ x = y := by
  refine ⟨fun h => ?_, fun h => by rw [h]⟩
  have hx : x.toNat < 256 ^ 4 := x.isLt
  have hy : y.toNat < 256 ^ 4 := y.isLt
  have hof := congrArg ofLeBytes h
  rw [ofLeBytes_leBytes, ofLeBytes_leBytes, Nat.mod_eq_of_lt hx, Nat.mod_eq_of_lt hy] at hof
  exact BitVec.eq_of_toNat_eq hof

/-- Of two headers with the same fields and payload, the checksums are the same just when the
stack held the same four bytes in their place. -/
theorem header_checksum_iff {stack stack' : Nat → Byte} {lsn now lsn' now' : Nat} {name name' : CString}
    {op op' : XdeviceWalOpType} {data : Bytes}
    (h : recordFields (walRecordHeader stack lsn now name op data) =
      recordFields (walRecordHeader stack' lsn' now' name' op' data)) :
    recordChecksum (walRecordHeader stack lsn now name op data) =
        recordChecksum (walRecordHeader stack' lsn' now' name' op' data) ↔
      ∀ i < 4, stack (12 + i) = stack' (12 + i) := by
  have hlen := length_walRecordFields stack lsn now name op data
  have hlen' := length_walRecordFields stack' lsn' now' name' op' data
  rw [recordFields_walRecordHeader, recordFields_walRecordHeader, recordFields, recordFields] at h
  obtain ⟨hfront, hrest⟩ := List.append_inj h (by simp [field, hlen, hlen'])
  rw [recordChecksum_walRecordHeader, recordChecksum_walRecordHeader, leBytes_four_inj]
  have hsum : storedSum stack lsn now name op data = storedSum stack' lsn' now' name' op' data ↔
      crc32 ((walRecordFields stack lsn now name op data).take 156) =
        crc32 ((walRecordFields stack' lsn' now' name' op' data).take 156) := by
    unfold storedSum
    dsimp only
    split
    · exact BitVec.xor_left_inj _
    · rfl
  have hlens : [stack' 12, stack' 13, stack' 14, stack' 15].length = [stack 12, stack 13, stack 14, stack 15].length := rfl
  rw [hsum, walRecordFields_take, walRecordFields_take, hfront, hrest, crc32_between_inj hlens (Nat.le_refl 4)]
  constructor
  · intro hmemory i hi
    simp only [List.cons.injEq, and_true] at hmemory
    obtain ⟨h12, h13, h14, h15⟩ := hmemory
    have hi' : i = 0 ∨ i = 1 ∨ i = 2 ∨ i = 3 := by omega
    rcases hi' with rfl | rfl | rfl | rfl
    · exact h12
    · exact h13
    · exact h14
    · exact h15
  · intro hmemory
    rw [hmemory 0 (by omega), hmemory 1 (by omega), hmemory 2 (by omega), hmemory 3 (by omega)]

/-! ## Appends -/

/-- An append that succeeds stores its header at the current offset. -/
theorem append_headerAt {env : WalEnv} {wal wal' : XdeviceWal} {region region' : Bytes} {name : CString}
    {op : XdeviceWalOpType} {data : Bytes} (hsize : wal.fileSize < 2 ^ 64)
    (h : xdeviceWalAppend env wal region name op data = some (wal', region', .ok)) :
    headerAt region' wal.currentOffset = walRecordHeader env.stack wal.nextLsn env.now name op data := by
  have hlen : (walRecordHeader env.stack wal.nextLsn env.now name op data).length = walRecordHeaderSize :=
    length_walRecordHeader ..
  unfold xdeviceWalAppend at h
  dsimp only at h
  split at h
  · cases h
  · obtain ⟨region1, hheader, h⟩ := Option.bind_eq_some_iff.1 h
    obtain ⟨hin, hregion, rfl⟩ := XdeviceWal.copy_eq_some.1 hheader
    obtain ⟨⟨wal2, region2⟩, hdata, h⟩ := Option.map_eq_some_iff.1 h
    cases h
    rw [hlen] at hin
    have hoff : add64 wal.currentOffset walRecordHeaderSize = wal.currentOffset + walRecordHeaderSize :=
      add64_eq (by dsimp only at hin; omega)
    split at hdata
    · obtain ⟨region3, hcopy, he⟩ := Option.map_eq_some_iff.1 hdata
      cases he
      obtain ⟨-, -, rfl⟩ := XdeviceWal.copy_eq_some.1 hcopy
      dsimp only
      rw [hoff, headerAt, field_writeAt_disjoint (by rw [length_writeAt]; omega) (.inl (Nat.le_refl _)), field_writeAt hlen]
    · cases hdata
      rw [headerAt, field_writeAt hlen]

/-- Two appends that store the same header fields and payload store the same checksum, just
when the stack held the same four bytes in the place of the checksum before them. -/
theorem record_checksum_same_iff {env env' : WalEnv} {wal wal' after after' : XdeviceWal}
    {region region' stored stored' : Bytes} {name name' : CString} {op op' : XdeviceWalOpType} {data : Bytes}
    (hsize : wal.fileSize < 2 ^ 64) (hsize' : wal'.fileSize < 2 ^ 64)
    (h : xdeviceWalAppend env wal region name op data = some (after, stored, .ok))
    (h' : xdeviceWalAppend env' wal' region' name' op' data = some (after', stored', .ok))
    (hfields : recordFields (headerAt stored wal.currentOffset) = recordFields (headerAt stored' wal'.currentOffset)) :
    recordChecksum (headerAt stored wal.currentOffset) = recordChecksum (headerAt stored' wal'.currentOffset) ↔
      ∀ i < 4, env.stack (12 + i) = env'.stack (12 + i) := by
  rw [append_headerAt hsize h, append_headerAt hsize' h'] at hfields ⊢
  exact header_checksum_iff hfields

/-! ## Damage -/

/-- The sum over a record header and its payload, as an append takes it. -/
def recordSum (header payload : Bytes) : BitVec 32 :=
  let checksum := crc32 (header.take (walRecordHeaderSize - 4))
  if 0 < payload.length then checksum ^^^ crc32 payload else checksum

/-- At most four bytes of the payload can be read off the sum. -/
theorem recordSum_payload_inj {header front word word' rest : Bytes} (hlen : word'.length = word.length)
    (hfour : word.length ≤ 4) :
    recordSum header (front ++ (word ++ rest)) = recordSum header (front ++ (word' ++ rest)) ↔ word = word' := by
  have hsame : (front ++ (word' ++ rest)).length = (front ++ (word ++ rest)).length := by
    simp only [List.length_append, hlen]
  unfold recordSum
  dsimp only
  rw [hsame]
  split
  · rw [BitVec.xor_right_inj]
    exact crc32_between_inj hlen hfour
  · -- nothing is stored, so there is no byte to differ in
    rename_i hempty
    simp only [List.length_append] at hempty
    rw [List.length_eq_zero_iff.1 (show word.length = 0 by omega),
      List.length_eq_zero_iff.1 (show word'.length = 0 by omega)]
    simp

/-- At most four bytes of what the sum covers of the header can be read off it. -/
theorem recordSum_header_inj {front word word' rest payload : Bytes} (hlen : word'.length = word.length)
    (hfour : word.length ≤ 4) (hcovered : front.length + word.length ≤ walRecordHeaderSize - 4) :
    recordSum (front ++ (word ++ rest)) payload = recordSum (front ++ (word' ++ rest)) payload ↔ word = word' := by
  obtain ⟨tail, htail⟩ : ∃ tail, tail = rest.take (walRecordHeaderSize - 4 - front.length - word.length) := ⟨_, rfl⟩
  have htake : ∀ run : Bytes, run.length = word.length →
      (front ++ (run ++ rest)).take (walRecordHeaderSize - 4) = front ++ (run ++ tail) := by
    intro run hrun
    rw [htail, List.take_append, List.take_append, hrun, List.take_of_length_le (by omega),
      List.take_of_length_le (by omega)]
  have hcrc : crc32 (front ++ (word ++ tail)) = crc32 (front ++ (word' ++ tail)) ↔ word = word' :=
    crc32_between_inj hlen hfour
  unfold recordSum
  dsimp only
  rw [htake word rfl, htake word' hlen]
  split
  · rw [BitVec.xor_left_inj]
    exact hcrc
  · exact hcrc

theorem storedSum_recordSum (stack : Nat → Byte) (lsn now : Nat) (deviceName : CString) (opType : XdeviceWalOpType)
    (data : Bytes) : storedSum stack lsn now deviceName opType data =
      recordSum (walRecordFields stack lsn now deviceName opType data) data := rfl

/-- What an append stores is the sum over the record, and damage to four bytes anywhere in what
is summed changes it. -/
theorem damage_changes_sum :
    (∀ front word word' rest : Bytes, word.length = 4 → word'.length = 4 → word ≠ word' →
      crc32 (front ++ (word ++ rest)) ≠ crc32 (front ++ (word' ++ rest))) ∧
    (∀ header front word word' rest : Bytes, word.length ≤ 4 → word'.length = word.length → word ≠ word' →
      recordSum header (front ++ (word ++ rest)) ≠ recordSum header (front ++ (word' ++ rest))) ∧
    (∀ front word word' rest payload : Bytes, word.length ≤ 4 → word'.length = word.length → word ≠ word' →
      front.length + word.length ≤ walRecordHeaderSize - 4 →
      recordSum (front ++ (word ++ rest)) payload ≠ recordSum (front ++ (word' ++ rest)) payload) ∧
    ∀ (env : WalEnv) (wal wal' : XdeviceWal) (region region' : Bytes) (name : CString) (op : XdeviceWalOpType)
      (data : Bytes), wal.fileSize < 2 ^ 64 →
      xdeviceWalAppend env wal region name op data = some (wal', region', .ok) →
      recordChecksum (headerAt region' wal.currentOffset) =
        leBytes 4 (recordSum (walRecordFields env.stack wal.nextLsn env.now name op data) data).toNat := by
  refine ⟨?_, ?_, ?_, ?_⟩
  · intro front word word' rest hword hword' hne h
    exact hne ((crc32_between_inj (by omega) (by omega)).1 h)
  · intro header front word word' rest hfour hlen hne h
    exact hne ((recordSum_payload_inj hlen hfour).1 h)
  · intro front word word' rest payload hfour hlen hne hcovered h
    exact hne ((recordSum_header_inj hlen hfour hcovered).1 h)
  · intro env wal wal' region region' name op data hsize h
    rw [append_headerAt hsize h, recordChecksum_walRecordHeader, storedSum_recordSum]

/-- Memory of zeros, but for one byte at offset `i`. -/
def memoryWith (i : Nat) (byte : Byte) : WalEnv := ⟨0, fun j => if j = i then byte else 0⟩

/-- An append of one byte to a new log of 400 bytes. -/
theorem append_newLog (env : WalEnv) : ∃ after stored,
    xdeviceWalAppend env (.opened 400) (List.replicate 400 0) (cstr "dev") .write [1] = some (after, stored, .ok) := by
  have hmapped : (XdeviceWal.opened 400).Mapped := ⟨by decide, by decide, by decide⟩
  have hroom : (XdeviceWal.opened 400).HasRoom [(1 : Byte)].length := by decide
  obtain ⟨⟨after, stored, code⟩, h⟩ := append_returns env (cstr "dev") .write hmapped
    (Nat.le_of_eq List.length_replicate.symm) (by decide : [(1 : Byte)].length < 2 ^ 63)
  rw [append_code hroom h] at h
  exact ⟨after, stored, h⟩

/-- The memory differs in the padding only. -/
theorem padding_unseen : ∃ after stored after' stored',
    xdeviceWalAppend (memoryWith 156 0) (.opened 400) (List.replicate 400 0) (cstr "dev") .write [1] = some (after, stored, .ok) ∧
    xdeviceWalAppend (memoryWith 156 1) (.opened 400) (List.replicate 400 0) (cstr "dev") .write [1] =
      some (after', stored', .ok) ∧
    recordChecksum (headerAt stored 40) = recordChecksum (headerAt stored' 40) := by
  obtain ⟨after, stored, h⟩ := append_newLog (memoryWith 156 0)
  obtain ⟨after', stored', h'⟩ := append_newLog (memoryWith 156 1)
  have hfields : recordFields (headerAt stored (XdeviceWal.opened 400).currentOffset) =
      recordFields (headerAt stored' (XdeviceWal.opened 400).currentOffset) := by
    rw [append_headerAt (by decide) h, append_headerAt (by decide) h', recordFields_walRecordHeader,
      recordFields_walRecordHeader]
    decide +kernel
  exact ⟨after, stored, after', stored', h, h', (record_checksum_same_iff (by decide) (by decide) h h' hfields).2 (by decide)⟩

/-- The memory differs in the place of the checksum: one record, two checksums. -/
theorem memory_shows_in_checksum : ∃ after stored after' stored',
    xdeviceWalAppend (memoryWith 12 0) (.opened 400) (List.replicate 400 0) (cstr "dev") .write [1] = some (after, stored, .ok) ∧
    xdeviceWalAppend (memoryWith 12 1) (.opened 400) (List.replicate 400 0) (cstr "dev") .write [1] =
      some (after', stored', .ok) ∧
    recordFields (headerAt stored 40) = recordFields (headerAt stored' 40) ∧
    recordChecksum (headerAt stored 40) ≠ recordChecksum (headerAt stored' 40) := by
  obtain ⟨after, stored, h⟩ := append_newLog (memoryWith 12 0)
  obtain ⟨after', stored', h'⟩ := append_newLog (memoryWith 12 1)
  have hheader : headerAt stored 40 = _ := append_headerAt (by decide) h
  have hheader' : headerAt stored' 40 = _ := append_headerAt (by decide) h'
  have hfields : recordFields (headerAt stored 40) = recordFields (headerAt stored' 40) := by
    rw [hheader, hheader', recordFields_walRecordHeader, recordFields_walRecordHeader]
    decide +kernel
  refine ⟨after, stored, after', stored', h, h', hfields, ?_⟩
  rw [hheader, hheader'] at hfields ⊢
  intro hsame
  exact absurd ((header_checksum_iff hfields).1 hsame 0 (by decide)) (by decide)

/-- A byte of the payload, one of the header, and the record of an append to a new log. -/
theorem damage_changes_sum_newLog :
    crc32 [7, 1, 2, 3, 4, 9] ≠ crc32 [7, 1, 2, 3, 5, 9] ∧
    recordSum (List.replicate 160 0) [1, 2] ≠ recordSum (List.replicate 160 0) [1, 3] ∧
    recordSum ([1] ++ List.replicate 159 0) [1] ≠ recordSum ([2] ++ List.replicate 159 0) [1] ∧
    ∃ after stored,
      xdeviceWalAppend (memoryWith 0 0) (.opened 400) (List.replicate 400 0) (cstr "dev") .write [1] =
        some (after, stored, .ok) ∧
      recordChecksum (headerAt stored 40) =
        leBytes 4 (recordSum (walRecordFields (memoryWith 0 0).stack 1 0 (cstr "dev") .write [1]) [1]).toNat := by
  obtain ⟨hword, hpayload, hheader, happend⟩ := damage_changes_sum
  obtain ⟨after, stored, h⟩ := append_newLog (memoryWith 0 0)
  refine ⟨?_, ?_, ?_, after, stored, h, ?_⟩
  · exact hword [7] [1, 2, 3, 4] [1, 2, 3, 5] [9] rfl rfl (by decide)
  · exact hpayload (List.replicate 160 0) [1] [2] [3] [] (by decide) rfl (by decide)
  · exact hheader [] [1] [2] (List.replicate 159 0) [1] (by decide) rfl (by decide) (by decide)
  · exact happend (memoryWith 0 0) (.opened 400) after (List.replicate 400 0) stored (cstr "dev") .write [1]
      (by decide) h

end XDevice
