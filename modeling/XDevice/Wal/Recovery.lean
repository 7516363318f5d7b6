import XDevice.Wal.Durability
import XDevice.Wal.Walk
/-!
# Reading a log after a crash

Everything in front of the current offset is on the disk after an `msync`, and nothing
later is written there. So whenever the system crashes afterwards, a reader that stops
where the log ended then finds the appends that were made before.
-/
open Lib

namespace XDevice

/-! ## The two machines -/

/-- The call of a program, if it is one. -/
def WalAction.call : WalAction → Option WalCall
  | .append env deviceName opType data => some (.append env deviceName opType data)
  | .sync msyncOk fsyncOk => some (.sync msyncOk fsyncOk)
  | .writeback _ => none

/-- A C string that fits a device name, and a payload that can be in memory. -/
def WalAction.Proper (a : WalAction) : Prop := ∀ c ∈ a.call, c.Proper

/-- The same log, looked at with its disk and with its appends. -/
structure SameWal (s : WalDisk) (l : WalLog) : Prop where
  wal : s.wal = l.wal
  region : s.file.mem = l.region

theorem walDisk_follows : Machine.Follows walDisk walLog WalAction.call SameWal := by
  rintro s l a s' code ⟨hwal, hregion⟩ hs
  cases a with
  | append env name op data =>
    obtain ⟨⟨wal', mem, code'⟩, hcall, he⟩ := Option.map_eq_some_iff.1 hs
    cases he
    rw [hwal, hregion] at hcall
    exact ⟨_, _, congrArg (Option.map _) hcall, rfl, rfl⟩
  | sync msyncOk fsyncOk =>
    cases hs
    refine ⟨_, _, rfl, ?_, ?_⟩
    · dsimp only
      rw [hwal]
    · dsimp only
      split <;> exact hregion
  | writeback places =>
    cases hs
    exact ⟨hwal, hregion⟩

/-! ## What stays on the disk -/

/-- The file starts with `d`, in memory and on the disk, and the log goes on behind it. -/
structure Kept (d : Bytes) (s : WalDisk) : Prop where
  mapped : s.wal.Mapped
  region : s.wal.fileSize ≤ s.file.mem.length
  held : s.file.Holds 0 0 d
  behind : d.length ≤ s.wal.currentOffset

section
variable {d : Bytes} {s s' : WalDisk} {a : WalAction} {code : XdeviceError}

/-- A sync moves neither the end of the file nor that of the log. -/
theorem walDisk_sync (msyncOk fsyncOk : Bool) (s : WalDisk) :
    ∃ wal code, walDisk.step s (.sync msyncOk fsyncOk) =
        some ({ s with wal := wal, file := if msyncOk then s.file.flush 0 s.wal.currentOffset else s.file }, code) ∧
      wal.fileSize = s.wal.fileSize ∧ wal.currentOffset = s.wal.currentOffset := by
  refine ⟨(xdeviceWalSync msyncOk fsyncOk s.wal).1, (xdeviceWalSync msyncOk fsyncOk s.wal).2, rfl, ?_⟩
  rcases sync_cases msyncOk fsyncOk s.wal with hsync | ⟨-, hsync⟩ <;> rw [hsync] <;> exact ⟨rfl, rfl⟩

theorem Kept.sync {wal : XdeviceWal} {file : Cached Byte} {d' : Bytes} (h : Kept d s) (hsize : wal.fileSize = s.wal.fileSize)
    (hoffset : wal.currentOffset = s.wal.currentOffset) (hmem : file.mem = s.file.mem) (hheld : file.Holds 0 0 d')
    (hbehind : d'.length ≤ s.wal.currentOffset) : Kept d' { s with wal := wal, file := file } := by
  refine ⟨⟨?_, ?_, ?_⟩, ?_, hheld, ?_⟩
  · exact hsize ▸ h.mapped.size
  · exact hoffset ▸ h.mapped.start
  · rw [hsize, hoffset]
    exact h.mapped.offset
  · rw [hsize, hmem]
    exact h.region
  · rw [hoffset]
    exact hbehind

theorem kept_step (h : Kept d s) (ha : a.Proper) : ∃ s' code, walDisk.step s a = some (s', code) ∧ Kept d s' := by
  cases a with
  | append env name op data =>
    obtain ⟨⟨wal', mem, code⟩, hcall⟩ := append_returns env name op h.mapped h.region (ha _ rfl).2.2
    have hstep : walDisk.step s (.append env name op data) = _ := congrArg (Option.map _) hcall
    refine ⟨_, _, hstep, ?_⟩
    have hstart := h.mapped.start
    have hbehind := h.behind
    rcases append_cases h.mapped hcall with ⟨-, rfl, rfl⟩ | ⟨-, hfits, rfl, rfl⟩
    · exact ⟨⟨h.mapped.1, h.mapped.2, h.mapped.3⟩, h.region, h.held, h.behind⟩
    · refine ⟨⟨h.mapped.size, ?_, ?_⟩, ?_, ?_, ?_⟩
      · exact Nat.le_add_right_of_le hstart
      · simp only [XdeviceWal.endAppend]
        omega
      · have hregion := h.region
        simp only [Cached.store, XdeviceWal.endAppend, length_writeAt]
        omega
      · exact h.held.behind (by omega) _
      · exact Nat.le_add_right_of_le hbehind
  | sync msyncOk fsyncOk =>
    obtain ⟨wal, code, hstep, hsize, hoffset⟩ := walDisk_sync msyncOk fsyncOk s
    refine ⟨_, code, hstep, h.sync hsize hoffset ?_ ?_ h.behind⟩
    · split <;> rfl
    · split
      · exact h.held.writeback _
      · exact h.held
  | writeback places => exact ⟨_, _, rfl, h.mapped, h.region, h.held.writeback places, h.behind⟩

/-- A successful `msync` keeps all that is in front of the current offset. -/
theorem sync_kept (h : Kept [] s) (hinside : s.wal.currentOffset ≤ s.file.mem.length) (fsyncOk : Bool) :
    ∃ s' code, walDisk.step s (.sync true fsyncOk) = some (s', code) ∧ Kept (s.file.mem.take s.wal.currentOffset) s' := by
  have hlen : (s.file.mem.take s.wal.currentOffset).length = s.wal.currentOffset := List.length_take_of_le hinside
  have hread : readAt 0 s.file.mem 0 (s.file.mem.take s.wal.currentOffset).length =
      s.file.mem.take s.wal.currentOffset := by
    rw [hlen, readAt_inside 0 (by omega), List.drop_zero]
  have hheld := Cached.holds_flush hread (n := s.wal.currentOffset) (by omega)
  obtain ⟨wal, code, hstep, hsize, hoffset⟩ := walDisk_sync true fsyncOk s
  exact ⟨_, code, hstep, h.sync hsize hoffset rfl hheld (Nat.le_of_eq hlen)⟩

end

/-! ## Main theorem -/

/-- `n` bytes of the file as a crash leaves it. -/
def crashedFile (image : Nat → Byte) (n : Nat) : Bytes := (List.range n).map image

/-- From the file that a crash left, a reader gets the appends of `l`. -/
def RecoversTo (l : WalLog) (image : Nat → Byte) : Prop :=
  walkRecords ((crashedFile image l.wal.currentOffset).drop walHeaderSize) = some (l.appended.map WalAppended.entry)

theorem crashedFile_held {image : Nat → Byte} {d : Bytes} (h : Cached.OnDisk 0 image 0 d) :
    crashedFile image d.length = d := by
  refine List.ext_getElem (by simp [crashedFile]) fun i _ hi => ?_
  have hbyte := h i hi
  rw [Nat.zero_add, List.getD_eq_getElem _ _ hi] at hbyte
  simpa [crashedFile] using hbyte

/-- What is kept is all that a reader looks at. -/
theorem recoversTo_iff {l : WalLog} (h : WalNamed l) {image : Nat → Byte}
    (hdisk : Cached.OnDisk 0 image 0 (l.region.take l.wal.currentOffset)) :
    RecoversTo l image ↔ ∀ a ∈ l.appended, a.Decodable := by
  have hfile := crashedFile_held hdisk
  rw [List.length_take_of_le h.ok.inside.2] at hfile
  rw [RecoversTo, hfile, List.drop_take]
  exact h.readsBack_iff

/-- Whatever is called after a successful `msync` on a log that was new, and whenever the
system crashes then, a reader gets the appends made before it, just when each of those that
found room had a payload of less than 4 GiB and a terminated name. -/
theorem synced_log_recovers {env : WalCreateEnv} {initialSize : Nat} {mem : Bytes} {wal : XdeviceWal} (disk : Nat → Byte)
    (hcreate : xdeviceWalCreate env [] initialSize = (mem, some wal)) {before after : List WalAction}
    (hbefore : ∀ a ∈ before, a.Proper) (hafter : ∀ a ∈ after, a.Proper) (fsyncOk : Bool) :
    ∃ l codes s codes' t codes'', walLog.run ⟨wal, mem, []⟩ (before.filterMap WalAction.call) = some (l, codes) ∧
      walDisk.run ⟨wal, ⟨mem, disk⟩, []⟩ (before ++ [.sync true fsyncOk]) = some (s, codes') ∧
      walDisk.run s after = some (t, codes'') ∧
      walDisk.Always (fun s => ∀ image, Cached.Torn 0 s.file s.file image →
        (RecoversTo l image ↔ walLog.Along FitsRecord ⟨wal, mem, []⟩ (before.filterMap WalAction.call))) s after ∧
      walDisk.Along (fun s a => ∀ s' code, walDisk.step s a = some (s', code) → ∀ image, Cached.Torn 0 s.file s'.file image →
        (RecoversTo l image ↔ walLog.Along FitsRecord ⟨wal, mem, []⟩ (before.filterMap WalAction.call))) s after := by
  have hok := walLogOk_new hcreate
  have hproper : ∀ c ∈ before.filterMap WalAction.call, c.Proper := by
    intro c hc
    obtain ⟨a, ha, hcall⟩ := List.mem_filterMap.1 hc
    exact hbefore a ha c hcall
  obtain ⟨l, codes, hlog, hnamed, hfits⟩ := Machine.run_iff_along (M := walLog)
    (P := fun l => ∀ a ∈ l.appended, a.Decodable) (fun _ _ => walNamed_step) ⟨hok, nofun⟩ hproper
  -- up to the sync, the log on its disk is that log
  have hnone : readAt 0 mem 0 0 = [] := List.eq_nil_of_length_eq_zero (length_readAt 0 mem 0 0)
  have hstart : Kept [] ⟨wal, ⟨mem, disk⟩, []⟩ := ⟨hok.mapped, hok.inside.1, ⟨hnone, nofun⟩, Nat.zero_le _⟩
  obtain ⟨s1, codes1, hrun1, hkept1⟩ := Machine.run_of_along (fun _ _ => kept_step) hstart
    (Machine.along_of_forall (M := walDisk) hbefore _)
  have hsame : SameWal ⟨wal, ⟨mem, disk⟩, []⟩ ⟨wal, mem, []⟩ := ⟨rfl, rfl⟩
  obtain ⟨l', codes2, hlog', hsame⟩ := walDisk_follows.run hsame hrun1
  rw [hlog] at hlog'
  cases hlog'
  have hinside : s1.wal.currentOffset ≤ s1.file.mem.length := by
    rw [hsame.wal, hsame.region]
    exact hnamed.ok.inside.2
  obtain ⟨s, code, hsync, hkept⟩ := sync_kept hkept1 hinside fsyncOk
  have hlast : walDisk.run s1 [.sync true fsyncOk] = some (s, [code]) :=
    Machine.run_cons_eq_some.2 ⟨s, code, [], hsync, rfl, rfl⟩
  have hrun := Machine.run_append hrun1 hlast
  rw [hsame.wal, hsame.region] at hkept
  -- from there on it stays on the disk
  have hreads : ∀ image, Cached.OnDisk 0 image 0 (l.region.take l.wal.currentOffset) →
      (RecoversTo l image ↔ walLog.Along FitsRecord ⟨wal, mem, []⟩ (before.filterMap WalAction.call)) := by
    intro image hdisk
    rw [recoversTo_iff hnamed hdisk, hfits]
    exact and_iff_right nofun
  have hall := Machine.along_of_forall (M := walDisk) hafter s
  obtain ⟨t, codes'', hrun', -⟩ := Machine.run_of_along (fun _ _ => kept_step) hkept hall
  have hkeeps : ∀ s a s' code, Kept (l.region.take l.wal.currentOffset) s → a.Proper →
      walDisk.step s a = some (s', code) → Kept (l.region.take l.wal.currentOffset) s' := by
    intro s a s' code h ha hs
    obtain ⟨t, code', ht, hkept⟩ := kept_step h ha
    rw [hs] at ht
    cases ht
    exact hkept
  refine ⟨l, codes, s, _, t, codes'', hlog, hrun, hrun', ?_, ?_⟩
  · exact Machine.Along.always hkeeps (fun s h image htorn => hreads image (h.held.torn h.held htorn)) hkept hall
  · refine Machine.Along.imp hkeeps (fun s a h ha s' code hs image htorn => hreads image ?_) hkept hall
    exact h.held.torn (hkeeps s a s' code h ha hs).held htorn

/-- Two records are synced, a third is under way when the system crashes. -/
theorem newLog_recovers : ∃ l codes s codes',
    walLog.run ⟨.opened 700, (newLog 700).1, []⟩ [appendOf [1, 2], appendOf []] = some (l, codes) ∧
    walDisk.run ⟨.opened 700, ⟨(newLog 700).1, fun _ => 0⟩, []⟩ [appendBytes [1, 2], appendBytes [], .sync true false] =
      some (s, codes') ∧
    ∀ s' code, walDisk.step s (appendBytes [3]) = some (s', code) → ∀ image, Cached.Torn 0 s.file s'.file image →
      RecoversTo l image := by
  have hcreate : newLog 700 = ((newLog 700).1, some (.opened 700)) := rfl
  have hshort : (cstr "dev").length < xdeviceMaxDeviceNameLen - 1 := by decide
  have hproper : ∀ data : Bytes, data.length < 2 ^ 32 → (appendBytes data).Proper := by
    rintro data hdata c hc
    cases hc
    exact ⟨by decide, by decide, by omega⟩
  have hbefore : ∀ a ∈ [appendBytes [1, 2], appendBytes []], a.Proper := by
    simpa using ⟨hproper [1, 2] (by decide), hproper [] (by decide)⟩
  have hafter : ∀ a ∈ [appendBytes [3]], a.Proper := by simpa using hproper [3] (by decide)
  obtain ⟨l, codes, s, codes', -, -, hlog, hrun, -, -, hcrash⟩ :=
    synced_log_recovers (fun _ => 0) hcreate hbefore hafter false
  refine ⟨l, codes, s, codes', hlog, hrun, fun s' code hs image htorn => (hcrash.1 s' code hs image htorn).2 ?_⟩
  exact ⟨fun _ => ⟨by decide, .inl hshort⟩, fun _ _ _ => ⟨fun _ => ⟨Nat.two_pow_pos 32, .inl hshort⟩, fun _ _ _ => trivial⟩⟩

end XDevice
