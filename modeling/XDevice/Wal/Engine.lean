import XDevice.Wal.Format
/-!
# The log engine

`wal_engine.c`. The log file is mapped shared, so its bytes are what the program
reads and writes in the mapping; what of them is on the disk is another matter.
A copy that leaves the mapping, or the file under it, faults.
-/

namespace XDevice

/-- `struct xdevice_wal`, without the locks, the path and the write buffer that no
function uses. -/
structure XdeviceWal where
  fileSize : Nat
  currentOffset : Nat
  nextLsn : Nat
  isSyncing : Bool
  lastSyncLsn : Nat
  totalWrites : Nat
  totalSyncs : Nat
  totalBytesWritten : Nat
  deriving DecidableEq, Repr

/-- What an append finds: the clock, and what the stack holds. -/
structure WalEnv where
  now : Nat
  stack : Nat → Byte

/-- What `xdevice_wal_create` finds: whether its allocations, locks and `open`
succeed, and each call on the file after them. -/
structure WalCreateEnv where
  setupOk : Bool
  ftruncateOk : Bool
  writeOk : Bool
  mmapOk : Bool
  now : Nat
  stack : Nat → Byte

/-- No mapping is larger: the user part of a 57-bit address space. -/
def maxMapping : Nat := 2 ^ 56

/-! ## Opening and closing -/

/-- The handle of a log of `fileSize` bytes that has just been opened. -/
def XdeviceWal.opened (fileSize : Nat) : XdeviceWal where
  fileSize := fileSize
  currentOffset := walHeaderSize
  nextLsn := 1
  isSyncing := false
  lastSyncLsn := 0
  totalWrites := 0
  totalSyncs := 0
  totalBytesWritten := 0

/-- `mmap` of the file, the last step of opening it. -/
def mapWal (env : WalCreateEnv) (fileSize : Nat) : Option XdeviceWal :=
  if env.mmapOk ∧ 0 < fileSize ∧ fileSize ≤ maxMapping then some (.opened fileSize) else none

/-- `xdevice_wal_create` with the check of a stored header as a parameter: the file
afterwards, and the handle if there is one. The file is new if it is empty; the header
of any other is checked, and its size taken from there. -/
def createWalIf (accepts : Bytes → Bool) (env : WalCreateEnv) (file : Bytes) (initialSize : Nat) :
    Bytes × Option XdeviceWal :=
  if initialSize = 0 ∨ env.setupOk = false then (file, none)
  else if file.length = 0 then
    if env.ftruncateOk = false ∨ 2 ^ 63 ≤ initialSize then (file, none)
    else
      let file := List.replicate initialSize 0
      if env.writeOk then
        (Lib.writeAt 0 file 0 (createWalHeader env.stack env.now initialSize), mapWal env initialSize)
      else (file, none)
  else
    let header := file.take walHeaderSize
    if header.length = walHeaderSize ∧ accepts header then (file, mapWal env (walHeaderFileSize header))
    else (file, none)

def xdeviceWalCreate (env : WalCreateEnv) (file : Bytes) (initialSize : Nat) : Bytes × Option XdeviceWal :=
  createWalIf validateWalHeader env file initialSize

/-- A new log of `initialSize` bytes, all calls on the way succeeding. -/
def newLog (initialSize : Nat) : Bytes × Option XdeviceWal :=
  xdeviceWalCreate ⟨true, true, true, true, 0, fun _ => 0⟩ [] initialSize

/-! ## Writing and syncing -/

/-- `memcpy` into the mapping. -/
def XdeviceWal.copy (wal : XdeviceWal) (region : Bytes) (offset : Nat) (src : Bytes) : Option Bytes :=
  if offset + src.length ≤ wal.fileSize then memcpy region offset src else none

/-- The number is given out before the space is checked. -/
def xdeviceWalAppend (env : WalEnv) (wal : XdeviceWal) (region : Bytes) (deviceName : CString)
    (opType : XdeviceWalOpType) (data : Bytes) : Option (XdeviceWal × Bytes × XdeviceError) :=
  let recordHeader := walRecordHeader env.stack wal.nextLsn env.now deviceName opType data
  let wal := { wal with nextLsn := add64 wal.nextLsn 1 }
  let totalRecordSize := add64 walRecordHeaderSize data.length
  if wal.fileSize < add64 wal.currentOffset totalRecordSize then some (wal, region, .io)
  else
    (wal.copy region wal.currentOffset recordHeader).bind fun region =>
      let wal := { wal with currentOffset := add64 wal.currentOffset walRecordHeaderSize }
      (if 0 < data.length then
        (wal.copy region wal.currentOffset data).map fun region =>
          ({ wal with currentOffset := add64 wal.currentOffset data.length }, region)
      else some (wal, region)).map fun (wal, region) =>
        ({ wal with
            totalWrites := add64 wal.totalWrites 1
            totalBytesWritten := add64 wal.totalBytesWritten totalRecordSize }, region, .ok)

/-- `msyncOk` and `fsyncOk` say how the two calls come out; what reaches the disk is
left to whoever looks at the disk. -/
def xdeviceWalSync (msyncOk fsyncOk : Bool) (wal : XdeviceWal) : XdeviceWal × XdeviceError :=
  if msyncOk = false ∨ fsyncOk = false then ({ wal with isSyncing := false }, .io)
  else
    ({ wal with
        lastSyncLsn := sub64 wal.nextLsn 1
        totalSyncs := add64 wal.totalSyncs 1
        isSyncing := false }, .ok)

/-- `xdevice_wal_stats_t`. -/
structure XdeviceWalStats where
  totalWrites : Nat
  totalSyncs : Nat
  totalBytesWritten : Nat
  currentLsn : Nat
  lastSyncLsn : Nat
  fileSize : Nat
  currentOffset : Nat
  isSyncing : Bool
  deriving DecidableEq, Repr

def xdeviceWalGetStats (wal : XdeviceWal) : XdeviceWalStats where
  totalWrites := wal.totalWrites
  totalSyncs := wal.totalSyncs
  totalBytesWritten := wal.totalBytesWritten
  currentLsn := sub64 wal.nextLsn 1
  lastSyncLsn := wal.lastSyncLsn
  fileSize := wal.fileSize
  currentOffset := wal.currentOffset
  isSyncing := wal.isSyncing

/-! ## Records -/

/-- A record as it was handed to the log: its number, its place, its header and
payload. -/
structure WalRecord where
  lsn : Nat
  offset : Nat
  bytes : Bytes
  deriving DecidableEq, Repr

/-- The record an append makes. -/
def walRecordOf (env : WalEnv) (wal : XdeviceWal) (deviceName : CString) (opType : XdeviceWalOpType) (data : Bytes) :
    WalRecord where
  lsn := wal.nextLsn
  offset := wal.currentOffset
  bytes := walRecordHeader env.stack wal.nextLsn env.now deviceName opType data ++ data

/-- A mapping that `mmap` could make, with the next record in it. -/
structure XdeviceWal.Mapped (wal : XdeviceWal) : Prop where
  size : wal.fileSize ≤ maxMapping
  start : walHeaderSize ≤ wal.currentOffset
  offset : wal.currentOffset ≤ max wal.fileSize walHeaderSize

theorem mapWal_spec {env : WalCreateEnv} {fileSize : Nat} {wal : XdeviceWal} (h : mapWal env fileSize = some wal) :
    wal = .opened fileSize ∧ wal.Mapped := by
  unfold mapWal at h
  split at h
  · rename_i hok
    cases h
    exact ⟨rfl, hok.2.2, Nat.le_refl _, Nat.le_max_right _ _⟩
  · cases h

/-- A log that is opened starts behind the header with number one. Only a new file is
written to, and made as long as the handle says; the length of any other is taken from its
header. -/
theorem create_spec {accepts : Bytes → Bool} {env : WalCreateEnv} {file file' : Bytes} {initialSize : Nat}
    {wal : XdeviceWal} (h : createWalIf accepts env file initialSize = (file', some wal)) :
    ∃ size, wal = .opened size ∧ wal.Mapped ∧
      (file = [] ∧ size = initialSize ∧ size ≤ file'.length ∨
        file ≠ [] ∧ file' = file ∧ size = walHeaderFileSize (file.take walHeaderSize)) := by
  unfold createWalIf at h
  dsimp only at h
  split at h
  · cases h
  · split at h
    · rename_i hempty
      split at h
      · cases h
      · split at h
        · obtain ⟨rfl, hmap⟩ := Prod.mk.inj h
          obtain ⟨hwal, hmapped⟩ := mapWal_spec hmap
          refine ⟨initialSize, hwal, hmapped, .inl ⟨List.eq_nil_of_length_eq_zero hempty, rfl, ?_⟩⟩
          rw [Lib.length_writeAt, List.length_replicate]
          exact Nat.le_max_left _ _
        · cases h
    · rename_i hempty
      split at h
      · obtain ⟨rfl, hmap⟩ := Prod.mk.inj h
        obtain ⟨hwal, hmapped⟩ := mapWal_spec hmap
        exact ⟨_, hwal, hmapped, .inr ⟨fun he => hempty (by rw [he]; rfl), rfl, rfl⟩⟩
      · cases h

/-- What a new log is made of. -/
theorem create_new {accepts : Bytes → Bool} {env : WalCreateEnv} {file : Bytes} {initialSize : Nat} {wal : XdeviceWal}
    (h : createWalIf accepts env [] initialSize = (file, some wal)) :
    wal = .opened initialSize ∧ 0 < initialSize ∧ initialSize ≤ maxMapping ∧
      file = Lib.writeAt 0 (List.replicate initialSize 0) 0 (createWalHeader env.stack env.now initialSize) := by
  unfold createWalIf at h
  dsimp only at h
  split at h
  · cases h
  · rename_i hstart
    rw [if_pos List.length_nil] at h
    split at h
    · cases h
    · split at h
      · obtain ⟨rfl, hmap⟩ := Prod.mk.inj h
        obtain ⟨hwal, hmapped⟩ := mapWal_spec hmap
        subst hwal
        exact ⟨rfl, Nat.pos_of_ne_zero fun he => hstart (.inl he), hmapped.size, rfl⟩
      · cases h

section
variable {env : WalEnv} {wal wal' : XdeviceWal} {region region' : Bytes} {name : CString} {op : XdeviceWalOpType}
  {data : Bytes} {code : XdeviceError}

theorem length_walRecordOf : (walRecordOf env wal name op data).bytes.length = walRecordHeaderSize + data.length := by
  simp [walRecordOf]

/-- The handle after an append that found no room. -/
def XdeviceWal.failAppend (wal : XdeviceWal) : XdeviceWal := { wal with nextLsn := add64 wal.nextLsn 1 }

/-- The handle after an append of `length` bytes of payload. -/
def XdeviceWal.endAppend (wal : XdeviceWal) (length : Nat) : XdeviceWal :=
  { wal with
    nextLsn := add64 wal.nextLsn 1
    currentOffset := wal.currentOffset + (walRecordHeaderSize + length)
    totalWrites := add64 wal.totalWrites 1
    totalBytesWritten := add64 wal.totalBytesWritten (add64 walRecordHeaderSize length) }

theorem XdeviceWal.copy_eq_some {offset : Nat} {src : Bytes} :
    wal.copy region offset src = some region' ↔
      offset + src.length ≤ wal.fileSize ∧ offset + src.length ≤ region.length ∧
        region' = Lib.writeAt 0 region offset src := by
  simp only [XdeviceWal.copy, memcpy, Option.ite_none_right_eq_some, Option.some.injEq, eq_comm (a := region')]

/-- An append that returns finds no room and only takes a number, or writes its
record from the current offset on, inside the mapping and the file. -/
theorem append_cases (hm : wal.Mapped)
    (h : xdeviceWalAppend env wal region name op data = some (wal', region', code)) :
    (code = .io ∧ region' = region ∧ wal' = wal.failAppend) ∨
    (code = .ok ∧ wal.currentOffset + (walRecordHeaderSize + data.length) ≤ min wal.fileSize region.length ∧
      region' = Lib.writeAt 0 region wal.currentOffset (walRecordOf env wal name op data).bytes ∧
      wal' = wal.endAppend data.length) := by
  have hsize : wal.fileSize ≤ 2 ^ 56 := hm.size
  unfold xdeviceWalAppend at h
  dsimp only at h
  split at h
  · cases h
    exact .inl ⟨rfl, rfl, rfl⟩
  · right
    obtain ⟨region1, hheader, h⟩ := Option.bind_eq_some_iff.1 h
    obtain ⟨hin, hregion, rfl⟩ := XdeviceWal.copy_eq_some.1 hheader
    rw [length_walRecordHeader] at hin hregion
    have hoff : add64 wal.currentOffset walRecordHeaderSize = wal.currentOffset + walRecordHeaderSize :=
      add64_eq (by simp only at hin; omega)
    obtain ⟨⟨wal2, region2⟩, hdata, h⟩ := Option.map_eq_some_iff.1 h
    dsimp only at hin h
    have hheader : (walRecordHeader env.stack wal.nextLsn env.now name op data).length = walRecordHeaderSize :=
      length_walRecordHeader ..
    split at hdata
    · obtain ⟨region3, hcopy, he⟩ := Option.map_eq_some_iff.1 hdata
      obtain ⟨hin', hregion', rfl⟩ := XdeviceWal.copy_eq_some.1 hcopy
      dsimp only at hin' hregion' he
      rw [hoff] at hin' hregion' he
      rw [Lib.length_writeAt_inside 0 (by rw [hheader]; exact hregion)] at hregion'
      have hend : add64 (wal.currentOffset + walRecordHeaderSize) data.length =
          wal.currentOffset + (walRecordHeaderSize + data.length) := by rw [add64_eq (by omega), Nat.add_assoc]
      rw [hend] at he
      cases he
      cases h
      refine ⟨rfl, by omega, ?_, rfl⟩
      rw [← hheader]
      exact Lib.writeAt_append ..
    · rename_i hempty
      obtain rfl : data = [] := List.eq_nil_of_length_eq_zero (by omega)
      rw [hoff] at hdata
      cases hdata
      cases h
      exact ⟨rfl, by simp; omega, by simp [walRecordOf], rfl⟩

/-- The check of the space is passed. -/
def XdeviceWal.HasRoom (wal : XdeviceWal) (length : Nat) : Prop :=
  add64 wal.currentOffset (add64 walRecordHeaderSize length) ≤ wal.fileSize

instance (wal : XdeviceWal) (length : Nat) : Decidable (wal.HasRoom length) :=
  inferInstanceAs (Decidable (_ ≤ _))

theorem append_full (hfull : ¬ wal.HasRoom data.length) :
    xdeviceWalAppend env wal region name op data = some (wal.failAppend, region, .io) :=
  if_pos (Nat.not_le.1 hfull)

theorem append_code (hroom : wal.HasRoom data.length)
    (h : xdeviceWalAppend env wal region name op data = some (wal', region', code)) : code = .ok := by
  unfold xdeviceWalAppend at h
  dsimp only at h
  rw [if_neg (Nat.not_lt.2 hroom)] at h
  obtain ⟨region1, -, h⟩ := Option.bind_eq_some_iff.1 h
  obtain ⟨r, -, h⟩ := Option.map_eq_some_iff.1 h
  cases h
  rfl

/-- Payloads that can be in memory find the room they need or none: an append
always returns. -/
theorem append_returns (env : WalEnv) (name : CString) (op : XdeviceWalOpType) (hm : wal.Mapped)
    (hregion : wal.fileSize ≤ region.length) (hdata : data.length < 2 ^ 63) :
    ∃ r, xdeviceWalAppend env wal region name op data = some r := by
  have hsize : wal.fileSize ≤ 2 ^ 56 := hm.size
  have hoffset := hm.offset
  have hheader : (walRecordHeader env.stack wal.nextLsn env.now name op data).length = walRecordHeaderSize :=
    length_walRecordHeader ..
  have htotal : add64 walRecordHeaderSize data.length = walRecordHeaderSize + data.length :=
    add64_eq (by simp only [walRecordHeaderSize]; omega)
  have hend : add64 wal.currentOffset (walRecordHeaderSize + data.length) =
      wal.currentOffset + (walRecordHeaderSize + data.length) :=
    add64_eq (by simp only [walRecordHeaderSize, walHeaderSize] at hoffset ⊢; omega)
  unfold xdeviceWalAppend
  dsimp only
  rw [htotal, hend]
  split
  · exact ⟨_, rfl⟩
  · rename_i hroom
    have hmid : add64 wal.currentOffset walRecordHeaderSize = wal.currentOffset + walRecordHeaderSize :=
      add64_eq (by omega)
    rw [XdeviceWal.copy_eq_some.2 ⟨by dsimp only; omega, by omega, rfl⟩, Option.bind_some, hmid]
    split
    · rw [XdeviceWal.copy_eq_some.2 ⟨by dsimp only; omega, ?_, rfl⟩]
      · exact ⟨_, rfl⟩
      · rw [Lib.length_writeAt_inside 0 (by omega)]
        omega
    · exact ⟨_, rfl⟩

/-- A sync moves the watermark to the last number if both calls succeed, and else
nothing. -/
theorem sync_cases (msyncOk fsyncOk : Bool) (wal : XdeviceWal) :
    xdeviceWalSync msyncOk fsyncOk wal = ({ wal with isSyncing := false }, .io) ∨
    msyncOk = true ∧ xdeviceWalSync msyncOk fsyncOk wal =
      ({ wal with
          lastSyncLsn := sub64 wal.nextLsn 1
          totalSyncs := add64 wal.totalSyncs 1
          isSyncing := false }, .ok) := by
  cases msyncOk with
  | false => exact .inl rfl
  | true =>
    cases fsyncOk with
    | false => exact .inl rfl
    | true => exact .inr ⟨rfl, rfl⟩

end

end XDevice
