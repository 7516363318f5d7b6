import XDevice.Wal.Engine
import XDevice.Lib.Cached
import XDevice.Lib.Machine
/-!
# What a sync makes durable

One log on a new file, its bytes in memory and on the disk. Appends only write behind
the records that are there, so a record that a sync has brought to the disk stays
there, whatever else gets to the disk and wherever a crash strikes. The numbers are
64-bit words, and stay apart for as long as fewer than `2 ^ 64` appends are called.
-/
open Lib

namespace XDevice

/-- A call on the log, or some bytes of the mapping reaching the disk. -/
inductive WalAction where
  | append (env : WalEnv) (deviceName : CString) (opType : XdeviceWalOpType) (data : Bytes)
  | sync (msyncOk fsyncOk : Bool)
  | writeback (places : Nat → Bool)

/-- A log, its file in memory and on the disk, and the records its successful appends
wrote. -/
structure WalDisk where
  wal : XdeviceWal
  file : Cached Byte
  log : List WalRecord

/-- A successful `msync` brings `[0, current_offset)` to the disk. -/
def walDisk : Machine WalDisk WalAction XdeviceError where
  step s
    | .append env deviceName opType data =>
      (xdeviceWalAppend env s.wal s.file.mem deviceName opType data).map fun (wal, mem, code) =>
        ({ wal := wal
           file := s.file.store mem
           log := if code = .ok then s.log ++ [walRecordOf env s.wal deviceName opType data] else s.log }, code)
    | .sync msyncOk fsyncOk =>
      let (wal, code) := xdeviceWalSync msyncOk fsyncOk s.wal
      some ({ s with
        wal := wal
        file := if msyncOk then s.file.flush 0 s.wal.currentOffset else s.file }, code)
    | .writeback places => some ({ s with file := s.file.writeback 0 places }, .ok)

/-- The largest number given out, `next_lsn - 1`. -/
def WalDisk.lastLsn (s : WalDisk) : Nat := sub64 s.wal.nextLsn 1

/-- All records up to `last_sync_lsn` are on the disk, byte for byte. -/
def Durable (s : WalDisk) (image : Nat → Byte) : Prop :=
  ∀ r ∈ s.log, r.lsn ≤ s.wal.lastSyncLsn → Cached.OnDisk 0 image r.offset r.bytes

/-- The watermark is no larger than the last number, and a crash now loses no record
below it. -/
def CrashSafe (s : WalDisk) : Prop :=
  s.wal.lastSyncLsn ≤ s.lastLsn ∧ ∀ image, Cached.Torn 0 s.file s.file image → Durable s image

/-- A call does not lower the watermark, or move it if it is a sync that fails; and a
crash before it returns loses no record below the watermark. -/
def StepSafe (s : WalDisk) (a : WalAction) : Prop :=
  ∀ s' code, walDisk.step s a = some (s', code) →
    s.wal.lastSyncLsn ≤ s'.wal.lastSyncLsn ∧
    (∀ msyncOk fsyncOk, a = .sync msyncOk fsyncOk → code ≠ .ok → s'.wal.lastSyncLsn = s.wal.lastSyncLsn) ∧
    ∀ image, Cached.Torn 0 s.file s'.file image → Durable s image

/-- Payloads are at most `2 ^ 63 - 1` bytes. -/
def WalAction.Small : WalAction → Prop
  | .append _ _ _ data => data.length < 2 ^ 63
  | _ => True

/-- Appends take a number each. -/
def WalAction.numbers : WalAction → Nat
  | .append _ _ _ _ => 1
  | _ => 0

/-! ## What calls keep -/

/-- Records lie behind one another in memory, with numbers given out, and those up to
the watermark on the disk too. -/
structure LogOk (s : WalDisk) : Prop where
  mapped : s.wal.Mapped
  region : s.wal.fileSize ≤ s.file.mem.length
  next : s.wal.nextLsn = add64 s.lastLsn 1
  synced : s.wal.lastSyncLsn ≤ s.lastLsn
  numbers : ∀ r ∈ s.log, r.lsn ≤ s.lastLsn
  placed : ∀ r ∈ s.log, r.offset + r.bytes.length ≤ s.wal.currentOffset
  written : ∀ r ∈ s.log, readAt 0 s.file.mem r.offset r.bytes.length = r.bytes
  durable : ∀ r ∈ s.log, r.lsn ≤ s.wal.lastSyncLsn → s.file.Holds 0 r.offset r.bytes

/-- The log is in order, and `n` numbers can still be given out. -/
def LogOkFor (n : Nat) (s : WalDisk) : Prop := LogOk s ∧ s.lastLsn + n < 2 ^ 64

section
variable {s s' : WalDisk} {a : WalAction} {code : XdeviceError} {n : Nat}

theorem LogOk.crashSafe (h : LogOk s) : CrashSafe s :=
  ⟨h.synced, fun _ ht r hr hle => (h.durable r hr hle).torn (h.durable r hr hle) ht⟩

theorem sub64_add64 {k : Nat} (h : k < 2 ^ 64) : sub64 (add64 k 1) 1 = k := by
  unfold sub64 add64
  omega

/-- What a call on a log in order does. -/
structure StepKeeps (s s' : WalDisk) (a : WalAction) (code : XdeviceError) : Prop where
  ok : LogOk s'
  numbered : s'.lastLsn = s.lastLsn + a.numbers
  mono : s.wal.lastSyncLsn ≤ s'.wal.lastSyncLsn
  failed : ∀ msyncOk fsyncOk, a = .sync msyncOk fsyncOk → code ≠ .ok → s'.wal.lastSyncLsn = s.wal.lastSyncLsn
  holds : ∀ r ∈ s.log, s.file.Holds 0 r.offset r.bytes → s'.file.Holds 0 r.offset r.bytes

theorem StepKeeps.stepSafe (h : LogOk s) (hstep : walDisk.step s a = some (s', code)) (hkeep : StepKeeps s s' a code) :
    StepSafe s a := by
  intro t c ht
  rw [hstep] at ht
  cases ht
  refine ⟨hkeep.mono, hkeep.failed, fun image htorn r hr hle => ?_⟩
  have hholds := h.durable r hr hle
  exact hholds.torn (hkeep.holds r hr hholds) htorn

/-- The number that an append takes is the next one, whether or not it finds room. -/
theorem LogOk.numbered (h : LogOk s) (hroom : s.lastLsn + 1 < 2 ^ 64) :
    s.wal.nextLsn = s.lastLsn + 1 ∧ sub64 (add64 s.wal.nextLsn 1) 1 = s.lastLsn + 1 := by
  have hnext : s.wal.nextLsn = s.lastLsn + 1 := by rw [h.next, add64_eq hroom]
  exact ⟨hnext, by rw [hnext, sub64_add64 hroom]⟩

/-- With no room, only the number is gone. -/
theorem LogOk.failAppend (h : LogOk s) (hroom : s.lastLsn + 1 < 2 ^ 64) : LogOk { s with wal := s.wal.failAppend } := by
  obtain ⟨hnext, hlast⟩ := h.numbered hroom
  have hnumbered : WalDisk.lastLsn { s with wal := s.wal.failAppend } = s.lastLsn + 1 := hlast
  refine ⟨⟨h.mapped.1, h.mapped.2, h.mapped.3⟩, h.region, ?_, ?_, ?_, h.placed, h.written, h.durable⟩
  · rw [hnumbered, ← hnext]
    rfl
  · rw [hnumbered]
    exact Nat.le_succ_of_le h.synced
  · intro r hr
    rw [hnumbered]
    exact Nat.le_succ_of_le (h.numbers r hr)

/-- What the disk holds of a record it still holds when memory behind the log changes. -/
theorem LogOk.held_behind (h : LogOk s) (bytes : Bytes) : ∀ r ∈ s.log, s.file.Holds 0 r.offset r.bytes →
    (s.file.store (writeAt 0 s.file.mem s.wal.currentOffset bytes)).Holds 0 r.offset r.bytes :=
  fun r hr hh => hh.behind (h.placed r hr) _

/-- With room, the record is behind the others, and its number above the watermark. -/
theorem LogOk.endAppend {env : WalEnv} {name : CString} {op : XdeviceWalOpType} {data : Bytes} (h : LogOk s)
    (hroom : s.lastLsn + 1 < 2 ^ 64)
    (hfits : s.wal.currentOffset + (walRecordHeaderSize + data.length) ≤ min s.wal.fileSize s.file.mem.length) :
    LogOk ⟨s.wal.endAppend data.length,
      s.file.store (writeAt 0 s.file.mem s.wal.currentOffset (walRecordOf env s.wal name op data).bytes),
      s.log ++ [walRecordOf env s.wal name op data]⟩ := by
  obtain ⟨hnext, hlast⟩ := h.numbered hroom
  have hlen : (walRecordOf env s.wal name op data).bytes.length = walRecordHeaderSize + data.length := length_walRecordOf
  have hnumbered : WalDisk.lastLsn ⟨s.wal.endAppend data.length, s.file.store (writeAt 0 s.file.mem s.wal.currentOffset
      (walRecordOf env s.wal name op data).bytes), s.log ++ [walRecordOf env s.wal name op data]⟩ = s.lastLsn + 1 := hlast
  refine ⟨⟨h.mapped.1, ?_, ?_⟩, ?_, ?_, ?_, ?_, ?_, ?_, ?_⟩
  · exact Nat.le_add_right_of_le h.mapped.start
  · simp only [XdeviceWal.endAppend]
    omega
  · have := h.region
    simp only [Cached.store, XdeviceWal.endAppend, length_writeAt]
    omega
  · rw [hnumbered, ← hnext]
    rfl
  · rw [hnumbered]
    exact Nat.le_succ_of_le h.synced
  · intro r hr
    rw [hnumbered]
    rcases List.mem_append.1 hr with hr | hr
    · exact Nat.le_succ_of_le (h.numbers r hr)
    · rw [List.mem_singleton.1 hr]
      exact Nat.le_of_eq hnext
  · intro r hr
    simp only [XdeviceWal.endAppend]
    rcases List.mem_append.1 hr with hr | hr
    · have := h.placed r hr
      omega
    · rw [List.mem_singleton.1 hr, hlen]
      exact Nat.le_refl _
  · intro r hr
    rcases List.mem_append.1 hr with hr | hr
    · exact (readAt_writeAt_disjoint 0 (.inl (h.placed r hr))).trans (h.written r hr)
    · rw [List.mem_singleton.1 hr]
      exact readAt_writeAt ..
  · intro r hr hle
    rcases List.mem_append.1 hr with hr | hr
    · exact h.held_behind _ r hr (h.durable r hr hle)
    · rw [List.mem_singleton.1 hr] at hle
      have hsynced := h.synced
      have hlsn : s.wal.nextLsn ≤ s.wal.lastSyncLsn := hle
      omega

theorem append_keeps_log {env : WalEnv} {name : CString} {op : XdeviceWalOpType} {data : Bytes} (h : LogOk s)
    (hroom : s.lastLsn + 1 < 2 ^ 64) (hdata : data.length < 2 ^ 63) :
    ∃ s' code, walDisk.step s (.append env name op data) = some (s', code) ∧
      StepKeeps s s' (.append env name op data) code := by
  obtain ⟨⟨wal', mem, code⟩, hcall⟩ := append_returns env name op h.mapped h.region hdata
  have hlast := (h.numbered hroom).2
  have hstep : walDisk.step s (.append env name op data) =
      some (⟨wal', s.file.store mem,
        if code = .ok then s.log ++ [walRecordOf env s.wal name op data] else s.log⟩, code) := by
    simp only [walDisk, hcall, Option.map_some]
  refine ⟨_, code, hstep, ?_⟩
  rcases append_cases h.mapped hcall with ⟨rfl, rfl, rfl⟩ | ⟨rfl, hfits, rfl, rfl⟩
  · rw [if_neg (by decide)]
    exact ⟨h.failAppend hroom, hlast, Nat.le_refl _, nofun, fun _ _ hr => hr⟩
  · rw [if_pos rfl]
    exact ⟨h.endAppend hroom hfits, hlast, Nat.le_refl _, nofun, h.held_behind _⟩

theorem sync_keeps_log (msyncOk fsyncOk : Bool) (h : LogOk s) :
    ∃ s' code, walDisk.step s (.sync msyncOk fsyncOk) = some (s', code) ∧
      StepKeeps s s' (.sync msyncOk fsyncOk) code := by
  have hstep : walDisk.step s (.sync msyncOk fsyncOk) = some ({ s with
      wal := (xdeviceWalSync msyncOk fsyncOk s.wal).1
      file := if msyncOk then s.file.flush 0 s.wal.currentOffset else s.file },
      (xdeviceWalSync msyncOk fsyncOk s.wal).2) := rfl
  -- a successful `msync` makes all records held
  have hheld : ∀ r ∈ s.log, msyncOk = true ∨ s.file.Holds 0 r.offset r.bytes →
      (if msyncOk then s.file.flush 0 s.wal.currentOffset else s.file).Holds 0 r.offset r.bytes := by
    intro r hr hor
    split
    · exact Cached.holds_flush (h.written r hr) (h.placed r hr)
    · rename_i hfail
      exact hor.resolve_left hfail
  have hmem : (if msyncOk then s.file.flush 0 s.wal.currentOffset else s.file).mem = s.file.mem := by
    split <;> rfl
  refine ⟨_, _, hstep, ?_⟩
  rcases sync_cases msyncOk fsyncOk s.wal with hsync | ⟨hmsync, hsync⟩ <;> rw [hsync]
  · refine ⟨⟨⟨h.mapped.1, h.mapped.2, h.mapped.3⟩, ?_, h.next, h.synced, h.numbers, h.placed, ?_, ?_⟩, (Nat.add_zero _).symm,
      Nat.le_refl _, fun _ _ _ _ => rfl, fun r hr hh => hheld r hr (.inr hh)⟩
    · exact hmem ▸ h.region
    · exact hmem ▸ h.written
    · intro r hr hle
      exact hheld r hr (.inr (h.durable r hr hle))
  · refine ⟨⟨⟨h.mapped.1, h.mapped.2, h.mapped.3⟩, ?_, h.next, Nat.le_refl _, h.numbers, h.placed, ?_, ?_⟩,
      (Nat.add_zero _).symm, h.synced, fun _ _ _ hne => absurd rfl hne, fun r hr hh => hheld r hr (.inr hh)⟩
    · exact hmem ▸ h.region
    · exact hmem ▸ h.written
    · intro r hr _
      exact hheld r hr (.inl hmsync)

theorem writeback_keeps_log (places : Nat → Bool) (h : LogOk s) :
    ∃ s' code, walDisk.step s (.writeback places) = some (s', code) ∧ StepKeeps s s' (.writeback places) code := by
  refine ⟨{ s with file := s.file.writeback 0 places }, .ok, rfl, ?_⟩
  refine ⟨⟨h.mapped, h.region, h.next, h.synced, h.numbers, h.placed, h.written, ?_⟩, (Nat.add_zero _).symm, Nat.le_refl _,
    nofun, fun r _ hr => hr.writeback places⟩
  intro r hr hle
  exact (h.durable r hr hle).writeback places

theorem keeps_log (h : LogOk s) (hroom : s.lastLsn + a.numbers < 2 ^ 64) (hsmall : a.Small) :
    ∃ s' code, walDisk.step s a = some (s', code) ∧ StepKeeps s s' a code := by
  cases a with
  | append env name op data => exact append_keeps_log h hroom hsmall
  | sync msyncOk fsyncOk => exact sync_keeps_log msyncOk fsyncOk h
  | writeback places => exact writeback_keeps_log places h

end

/-! ## Runs -/

theorem lastLsn_opened {size : Nat} {file : Cached Byte} {log : List WalRecord} :
    WalDisk.lastLsn ⟨.opened size, file, log⟩ = 0 := by
  have h : sub64 1 1 = 1 - 1 := sub64_eq (Nat.le_refl 1) (by omega)
  exact h

theorem logOk_new {env : WalCreateEnv} {initialSize : Nat} {mem : Bytes} {wal : XdeviceWal} (disk : Nat → Byte)
    (hcreate : xdeviceWalCreate env [] initialSize = (mem, some wal)) : LogOk ⟨wal, ⟨mem, disk⟩, []⟩ := by
  obtain ⟨size, rfl, hmapped, hfile⟩ := create_spec hcreate
  have hregion : size ≤ mem.length := by
    rcases hfile with ⟨-, -, hle⟩ | ⟨hne, -⟩
    · exact hle
    · exact absurd rfl hne
  refine ⟨hmapped, hregion, ?_, Nat.zero_le _, nofun, nofun, nofun, nofun⟩
  rw [lastLsn_opened]
  rfl

/-- Over any run of fewer than `2 ^ 64` appends, and of any syncs and writebacks, on a
log that is new: every call returns, the watermark only grows and stays below the next
number, failed syncs do not move it, and no crash at or between calls loses a byte of
a record below it. -/
theorem wal_sync_durable {env : WalCreateEnv} {initialSize : Nat} {mem : Bytes} {wal : XdeviceWal} (disk : Nat → Byte)
    (hcreate : xdeviceWalCreate env [] initialSize = (mem, some wal)) {actions : List WalAction}
    (hsmall : ∀ a ∈ actions, a.Small) (hcount : (actions.map WalAction.numbers).sum < 2 ^ 64) :
    (∃ s codes, walDisk.run ⟨wal, ⟨mem, disk⟩, []⟩ actions = some (s, codes)) ∧
    walDisk.Along StepSafe ⟨wal, ⟨mem, disk⟩, []⟩ actions ∧
    walDisk.Always CrashSafe ⟨wal, ⟨mem, disk⟩, []⟩ actions := by
  have hnew := logOk_new disk hcreate
  have hlast : WalDisk.lastLsn ⟨wal, ⟨mem, disk⟩, []⟩ = 0 := by
    obtain ⟨size, rfl, -⟩ := create_spec hcreate
    exact lastLsn_opened
  have hstart : LogOkFor ((actions.map WalAction.numbers).sum + 0) ⟨wal, ⟨mem, disk⟩, []⟩ := ⟨hnew, by omega⟩
  have hkeeps : ∀ n s a, a.Small → LogOkFor (a.numbers + n) s →
      ∃ s' code, walDisk.step s a = some (s', code) ∧ StepKeeps s s' a code := by
    rintro n s a ha ⟨hok, hroom⟩
    exact keeps_log hok (by omega) ha
  have hstep : ∀ n s a, a.Small → LogOkFor (a.numbers + n) s →
      ∃ s' code, walDisk.step s a = some (s', code) ∧ LogOkFor n s' := by
    intro n s a ha hI
    obtain ⟨s', code, hstep, hkeep⟩ := hkeeps n s a ha hI
    have hroom := hI.2
    have hnumbered := hkeep.numbered
    exact ⟨s', code, hstep, hkeep.ok, by omega⟩
  have hsafe : ∀ n s a, a.Small → LogOkFor (a.numbers + n) s → StepSafe s a := by
    intro n s a ha hI
    obtain ⟨s', code, hstep, hkeep⟩ := hkeeps n s a ha hI
    exact hkeep.stepSafe hI.1 hstep
  obtain ⟨⟨s, codes, hrun, -⟩, hsteps, hstates⟩ :=
    Machine.run_of_budget hstep hsafe (fun _ _ hI => hI.1.crashSafe) hsmall hstart
  exact ⟨⟨s, codes, hrun⟩, hsteps, hstates⟩

/-- An append of some bytes at time zero. -/
def appendBytes (data : Bytes) : WalAction := .append ⟨0, fun _ => 0⟩ (cstr "dev") .write data

/-- Two records, a sync that fails in `fsync` and one that succeeds. -/
theorem newLog_sync_durable :
    (∃ s codes, walDisk.run ⟨.opened 400, ⟨(newLog 400).1, fun _ => 0⟩, []⟩
      [appendBytes [1], .sync true false, .sync true true, appendBytes [2]] = some (s, codes)) ∧
    walDisk.Along StepSafe ⟨.opened 400, ⟨(newLog 400).1, fun _ => 0⟩, []⟩
      [appendBytes [1], .sync true false, .sync true true, appendBytes [2]] ∧
    walDisk.Always CrashSafe ⟨.opened 400, ⟨(newLog 400).1, fun _ => 0⟩, []⟩
      [appendBytes [1], .sync true false, .sync true true, appendBytes [2]] := by
  have hcreate : newLog 400 = ((newLog 400).1, some (.opened 400)) := rfl
  apply wal_sync_durable (fun _ => 0) hcreate _ (by decide)
  simp [WalAction.Small, appendBytes]

/-! ## When the numbers run out -/

/-- A log of 40 bytes has no room for a record, but gives out numbers. -/
theorem run_full (n : Nat) {s : WalDisk} (hsize : s.wal.fileSize = 40) (hoffset : s.wal.currentOffset = 40)
    (hnext : s.wal.nextLsn < 2 ^ 64) :
    ∃ s' codes, walDisk.run s (List.replicate n (appendBytes [])) = some (s', codes) ∧
      s'.wal.nextLsn = (s.wal.nextLsn + n) % 2 ^ 64 ∧ s'.wal.lastSyncLsn = s.wal.lastSyncLsn := by
  induction n generalizing s with
  | zero => exact ⟨s, [], rfl, (Nat.mod_eq_of_lt hnext).symm, rfl⟩
  | succ n ih =>
    have hstep : walDisk.step s (appendBytes []) = some ({ s with wal := s.wal.failAppend }, .io) := by
      have hfull : s.wal.fileSize < add64 s.wal.currentOffset (add64 walRecordHeaderSize 0) := by
        rw [hsize, hoffset]
        decide
      simp only [walDisk, appendBytes, xdeviceWalAppend, List.length_nil, if_pos hfull]
      rfl
    have hnext' : s.wal.failAppend.nextLsn < 2 ^ 64 := Nat.mod_lt _ (by omega)
    obtain ⟨s', codes, hrun, hlsn, hsync⟩ := ih (s := { s with wal := s.wal.failAppend }) hsize hoffset hnext'
    refine ⟨s', .io :: codes, Machine.run_cons_eq_some.2 ⟨_, _, codes, hstep, hrun, rfl⟩, ?_, hsync⟩
    rw [hlsn, XdeviceWal.failAppend, add64, Nat.mod_add_mod]
    congr 1
    omega

/-- One number synced, then `n` more given out. -/
theorem run_synced_full (n : Nat) : ∃ s codes,
    walDisk.run ⟨.opened 40, ⟨(newLog 40).1, fun _ => 0⟩, []⟩
      (appendBytes [] :: .sync true true :: List.replicate n (appendBytes [])) = some (s, codes) ∧
    s.wal.lastSyncLsn = 1 ∧ s.wal.nextLsn = (2 + n) % 2 ^ 64 := by
  obtain ⟨s2, hrun, hsize, hoffset, hnext, hsync⟩ : ∃ s2,
      walDisk.run ⟨.opened 40, ⟨(newLog 40).1, fun _ => 0⟩, []⟩ [appendBytes [], .sync true true] =
        some (s2, [.io, .ok]) ∧ s2.wal.fileSize = 40 ∧ s2.wal.currentOffset = 40 ∧ s2.wal.nextLsn = 2 ∧
        s2.wal.lastSyncLsn = 1 := ⟨_, rfl, rfl, rfl, rfl, rfl⟩
  obtain ⟨s1, b1, bs1, hstep1, hrun, -⟩ := Machine.run_cons_eq_some.1 hrun
  obtain ⟨t, b2, bs2, hstep2, hrun, -⟩ := Machine.run_cons_eq_some.1 hrun
  obtain ⟨rfl, -⟩ : t = s2 ∧ _ := by simpa using hrun
  obtain ⟨s, codes, hrun, hlsn, hkept⟩ := run_full n hsize hoffset (by rw [hnext]; omega)
  refine ⟨s, _, Machine.run_cons_eq_some.2 ⟨s1, b1, _, hstep1, Machine.run_cons_eq_some.2 ⟨t, b2, codes, hstep2, hrun, rfl⟩,
    rfl⟩, hkept.trans hsync, ?_⟩
  rw [hlsn, hnext]

/-- After `2 ^ 64` appends the next number is one again, and the watermark is above
the numbers given out. -/
theorem numbers_run_out : ∃ s codes,
    newLog 40 = ((newLog 40).1, some (.opened 40)) ∧
    (∀ a ∈ appendBytes [] :: .sync true true :: List.replicate (2 ^ 64 - 1) (appendBytes []), a.Small) ∧
    walDisk.run ⟨.opened 40, ⟨(newLog 40).1, fun _ => 0⟩, []⟩
      (appendBytes [] :: .sync true true :: List.replicate (2 ^ 64 - 1) (appendBytes [])) = some (s, codes) ∧
    s.wal.lastSyncLsn = 1 ∧ s.wal.nextLsn = 1 ∧ ¬ s.wal.lastSyncLsn ≤ s.lastLsn := by
  obtain ⟨s, codes, hrun, hsync, hlsn⟩ := run_synced_full (2 ^ 64 - 1)
  have hone : s.wal.nextLsn = 1 := by omega
  refine ⟨s, codes, rfl, ?_, hrun, hsync, hone, ?_⟩
  · intro a ha
    rcases List.mem_cons.1 ha with rfl | ha
    · exact Nat.two_pow_pos 63
    · rcases List.mem_cons.1 ha with rfl | ha
      · trivial
      · rw [List.eq_of_mem_replicate ha]
        exact Nat.two_pow_pos 63
  · rw [WalDisk.lastLsn, hsync, hone, sub64_eq (Nat.le_refl 1) (by omega)]
    omega

end XDevice
