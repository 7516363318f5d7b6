import XDevice.Wal.Engine
import XDevice.Lib.Machine
/-!
# The records in a new log

The mapping behind the header is the records of all successful appends, one after the
other, and ends at the current offset. An append that finds no room still takes a
number, so that numbers and records part for good.
-/
open Lib

namespace XDevice

/-! ## Calls and what they leave -/

inductive WalCall where
  | append (env : WalEnv) (deviceName : CString) (opType : XdeviceWalOpType) (data : Bytes)
  | sync (msyncOk fsyncOk : Bool)

/-- A successful append: what it was given, the number it took and what it met. -/
structure WalAppended where
  env : WalEnv
  lsn : Nat
  deviceName : CString
  opType : XdeviceWalOpType
  data : Bytes

/-- The header and the payload in the mapping. -/
def WalAppended.bytes (a : WalAppended) : Bytes :=
  walRecordHeader a.env.stack a.lsn a.env.now a.deviceName a.opType a.data ++ a.data

/-- A log with its mapping, and its successful appends. -/
structure WalLog where
  wal : XdeviceWal
  region : Bytes
  appended : List WalAppended

def walLog : Machine WalLog WalCall XdeviceError where
  step s
    | .append env deviceName opType data =>
      (xdeviceWalAppend env s.wal s.region deviceName opType data).map fun (wal, region, code) =>
        ({ wal := wal
           region := region
           appended :=
             if code = .ok then s.appended ++ [⟨env, s.wal.nextLsn, deviceName, opType, data⟩] else s.appended }, code)
    | .sync msyncOk fsyncOk =>
      let (wal, code) := xdeviceWalSync msyncOk fsyncOk s.wal
      some ({ s with wal := wal }, code)

namespace WalLog

/-- The mapping between the header and the current offset. -/
def records (s : WalLog) : Bytes := field s.region walHeaderSize (s.wal.currentOffset - walHeaderSize)

end WalLog

/-- What every call keeps: the mapping behind the header is the records, and the next
number is a word. -/
structure WalLogOk (s : WalLog) : Prop where
  mapped : s.wal.Mapped
  inside : s.wal.fileSize ≤ s.region.length ∧ s.wal.currentOffset ≤ s.region.length
  next : s.wal.nextLsn < 2 ^ 64
  records : s.records = (s.appended.map WalAppended.bytes).flatten
  numbers : ∀ a ∈ s.appended, a.lsn < 2 ^ 64

/-- Writing at the end of a field makes it longer. -/
theorem field_writeAt_end {b d : Bytes} {base off : Nat} (hbase : base ≤ off) (hoff : off ≤ b.length) :
    field (writeAt 0 b off d) base (off + d.length - base) = field b base (off - base) ++ d := by
  have hpad : padTo 0 b off = b := by simp [padTo, Nat.sub_eq_zero_of_le hoff]
  have hlen : ((b.take off).drop base).length = off - base := by simp; omega
  rw [field, writeAt, hpad, List.append_assoc, List.drop_append_of_le_length (by simp; omega), ← List.append_assoc,
    List.take_left' (by rw [List.length_append, hlen]; omega), field, List.drop_take]

section
variable {s s' : WalLog} {code : XdeviceError} {env : WalEnv} {name : CString} {op : XdeviceWalOpType} {data : Bytes}

theorem walLogOk_new {env : WalCreateEnv} {initialSize : Nat} {region : Bytes} {wal : XdeviceWal}
    (hcreate : xdeviceWalCreate env [] initialSize = (region, some wal)) : WalLogOk ⟨wal, region, []⟩ := by
  obtain ⟨rfl, -, hmax, hfile⟩ := create_new hcreate
  obtain rfl := hfile.symm
  have hlen : (writeAt 0 (List.replicate initialSize 0) 0 (createWalHeader env.stack env.now initialSize)).length =
      max initialSize walHeaderSize := by
    rw [length_writeAt, List.length_replicate, length_createWalHeader, Nat.zero_add]
  refine ⟨⟨hmax, Nat.le_refl _, Nat.le_max_right _ _⟩, ?_, Nat.one_lt_two_pow (by omega), ?_, nofun⟩
  · rw [hlen]
    exact ⟨Nat.le_max_left _ _, Nat.le_max_right _ _⟩
  · simp [WalLog.records, XdeviceWal.opened, field]

/-- A full log gives its number away and stays as it is. -/
theorem append_step_full (hfull : ¬ s.wal.HasRoom data.length) :
    walLog.step s (.append env name op data) = some ({ s with wal := s.wal.failAppend }, .io) := by
  simp only [walLog, append_full hfull, Option.map_some]
  rfl

/-- An append that is answered and finds room puts its record at the end. -/
theorem append_step_room (hok : WalLogOk s) (hroom : s.wal.HasRoom data.length)
    (h : walLog.step s (.append env name op data) = some (s', code)) :
    code = .ok ∧ s'.wal = s.wal.endAppend data.length ∧
      s.wal.currentOffset + (walRecordHeaderSize + data.length) ≤ s.wal.fileSize ∧
      s'.appended = s.appended ++ [⟨env, s.wal.nextLsn, name, op, data⟩] ∧ WalLogOk s' := by
  obtain ⟨⟨wal', region', code'⟩, hcall, he⟩ := Option.map_eq_some_iff.1 h
  cases he
  obtain rfl := append_code hroom hcall
  rcases append_cases hok.mapped hcall with ⟨hne, -, -⟩ | ⟨-, hfits, rfl, rfl⟩
  · cases hne
  have hmapped := hok.mapped
  have hstart := hmapped.start
  have hlen : (walRecordOf env s.wal name op data).bytes.length = walRecordHeaderSize + data.length := length_walRecordOf
  have hinside := hok.inside
  have hregion : (writeAt 0 s.region s.wal.currentOffset (walRecordOf env s.wal name op data).bytes).length =
      s.region.length := length_writeAt_inside 0 (by omega)
  refine ⟨rfl, rfl, by omega, by simp, ⟨hmapped.size, ?_, ?_⟩, ?_, ?_, ?_, ?_⟩
  · exact Nat.le_add_right_of_le hstart
  · simp only [XdeviceWal.endAppend]
    omega
  · simp only [hregion, XdeviceWal.endAppend]
    omega
  · exact Nat.mod_lt _ (by omega)
  · have hend := field_writeAt_end (d := (walRecordOf env s.wal name op data).bytes) hstart hinside.2
    rw [hlen] at hend
    have hold : field s.region walHeaderSize (s.wal.currentOffset - walHeaderSize) = _ := hok.records
    simp only [WalLog.records, XdeviceWal.endAppend, if_true, List.map_append, List.flatten_append, hend, hold]
    simp [WalAppended.bytes, walRecordOf]
  · intro a ha
    simp only [if_true] at ha
    rcases List.mem_append.1 ha with ha | ha
    · exact hok.numbers a ha
    · rw [List.mem_singleton.1 ha]
      exact hok.next

/-- Giving a number away keeps the records. -/
theorem WalLogOk.failAppend (hok : WalLogOk s) : WalLogOk { s with wal := s.wal.failAppend } :=
  ⟨⟨hok.mapped.1, hok.mapped.2, hok.mapped.3⟩, hok.inside, Nat.mod_lt _ (by omega), hok.records, hok.numbers⟩

/-- A sync leaves the mapping and the records alone. -/
theorem sync_step {msyncOk fsyncOk : Bool} (h : walLog.step s (.sync msyncOk fsyncOk) = some (s', code)) :
    (code = .io ∧ s' = { s with wal := { s.wal with isSyncing := false } }) ∨
    (code = .ok ∧ s' = { s with wal := { s.wal with
      lastSyncLsn := sub64 s.wal.nextLsn 1, totalSyncs := add64 s.wal.totalSyncs 1, isSyncing := false } }) := by
  have hstep : walLog.step s (.sync msyncOk fsyncOk) = some ({ s with wal := (xdeviceWalSync msyncOk fsyncOk s.wal).1 },
      (xdeviceWalSync msyncOk fsyncOk s.wal).2) := rfl
  rcases sync_cases msyncOk fsyncOk s.wal with hsync | ⟨-, hsync⟩ <;> rw [hstep, hsync] at h <;> cases h
  · exact .inl ⟨rfl, rfl⟩
  · exact .inr ⟨rfl, rfl⟩

theorem walLog_keeps : walLog.Keeps WalLogOk := by
  intro s c s' code hok h
  cases c with
  | append env name op data =>
    by_cases hroom : s.wal.HasRoom data.length
    · exact (append_step_room hok hroom h).2.2.2.2
    · rw [append_step_full hroom] at h
      cases h
      exact hok.failAppend
  | sync msyncOk fsyncOk =>
    rcases sync_step h with ⟨-, rfl⟩ | ⟨-, rfl⟩
    · exact ⟨⟨hok.mapped.1, hok.mapped.2, hok.mapped.3⟩, hok.inside, hok.next, hok.records, hok.numbers⟩
    · exact ⟨⟨hok.mapped.1, hok.mapped.2, hok.mapped.3⟩, hok.inside, hok.next, hok.records, hok.numbers⟩

end

/-! ## Numbers without gaps -/

/-- A call that fails changes nothing. -/
def AtomicCall (s : WalLog) (c : WalCall) : Prop :=
  ∀ s' code, walLog.step s c = some (s', code) → code ≠ .ok → s' = s

/-- The records in the mapping are numbered from one on, the statistics count them, and
the last sync was before the first or of one of them. -/
structure NoGaps (s : WalLog) : Prop where
  records : s.records = (s.appended.map WalAppended.bytes).flatten
  numbers : s.appended.map WalAppended.lsn = List.range' 1 s.appended.length
  currentLsn : (xdeviceWalGetStats s.wal).currentLsn = s.appended.length
  totalWrites : (xdeviceWalGetStats s.wal).totalWrites = s.appended.length
  synced : (xdeviceWalGetStats s.wal).lastSyncLsn = 0 ∨
    ∃ a ∈ s.appended, a.lsn = (xdeviceWalGetStats s.wal).lastSyncLsn

/-- The record fits behind the others. -/
def FindsRoom (s : WalLog) : WalCall → Prop
  | .append _ _ _ data => s.wal.HasRoom data.length
  | .sync _ _ => True

instance : ∀ s c, Decidable (FindsRoom s c)
  | s, .append _ _ _ data => inferInstanceAs (Decidable (s.wal.HasRoom data.length))
  | _, .sync _ _ => .isTrue trivial

/-- No more records than fit, and no sync under way. -/
structure WalLogIdle (s : WalLog) : Prop where
  ok : WalLogOk s
  count : s.appended.length * walRecordHeaderSize ≤ s.wal.currentOffset
  idle : s.wal.isSyncing = false

section
variable {s s' : WalLog} {c : WalCall} {code : XdeviceError}

theorem WalLogIdle.count_lt (h : WalLogIdle s) : s.appended.length < 2 ^ 56 := by
  have hcount := h.count
  have hoffset := h.ok.mapped.offset
  have hsize : s.wal.fileSize ≤ 2 ^ 56 := h.ok.mapped.size
  simp only [walRecordHeaderSize, walHeaderSize] at hcount hoffset
  omega

theorem sub64_one {k : Nat} (h : k < 2 ^ 64) (n : Nat) (hn : n < 2 ^ 56) : sub64 k 1 = n ↔ k = n + 1 := by
  unfold sub64
  omega

/-- While there are no gaps, the next number is one more than there are records. -/
theorem NoGaps.next (hg : NoGaps s) (h : WalLogIdle s) : s.wal.nextLsn = s.appended.length + 1 :=
  (sub64_one h.ok.next _ h.count_lt).1 hg.currentLsn

theorem walLogIdle_step (h : WalLogIdle s) (hstep : walLog.step s c = some (s', code)) : WalLogIdle s' := by
  have hok := walLog_keeps s c s' code h.ok hstep
  cases c with
  | append env name op data =>
    by_cases hroom : s.wal.HasRoom data.length
    · obtain ⟨-, hwal, hfits, happended, -⟩ := append_step_room h.ok hroom hstep
      have hcount := h.count
      refine ⟨hok, ?_, by rw [hwal]; exact h.idle⟩
      rw [happended, hwal, List.length_append, List.length_singleton]
      simp only [XdeviceWal.endAppend, Nat.add_mul]
      omega
    · rw [append_step_full hroom] at hstep
      cases hstep
      exact ⟨hok, h.count, h.idle⟩
  | sync msyncOk fsyncOk =>
    rcases sync_step hstep with ⟨-, rfl⟩ | ⟨-, rfl⟩
    · exact ⟨hok, h.count, rfl⟩
    · exact ⟨hok, h.count, rfl⟩

/-- A failing sync changes nothing, and neither does an append, unless it gives its
number away. -/
theorem atomicCall_iff (h : WalLogIdle s) (c : WalCall) : AtomicCall s c ↔ FindsRoom s c := by
  cases c with
  | append env name op data =>
    constructor
    · intro hatomic
      by_contra hroom
      have hsame := hatomic _ _ (append_step_full hroom) nofun
      have hnext : s.wal.failAppend.nextLsn = s.wal.nextLsn := congrArg (fun s => s.wal.nextLsn) hsame
      have hlt := h.ok.next
      simp only [XdeviceWal.failAppend, add64] at hnext
      omega
    · intro hroom s' code hstep hne
      exact absurd (append_step_room h.ok hroom hstep).1 hne
  | sync msyncOk fsyncOk =>
    refine iff_of_true (fun s' code hstep hne => ?_) trivial
    rcases sync_step hstep with ⟨-, rfl⟩ | ⟨rfl, -⟩
    · rw [← h.idle]
    · exact absurd rfl hne

theorem noGaps_step (h : WalLogIdle s) (hg : NoGaps s) (hroom : FindsRoom s c)
    (hstep : walLog.step s c = some (s', code)) : NoGaps s' := by
  have hidle := walLogIdle_step h hstep
  have hnext := hg.next h
  have hlt := h.count_lt
  cases c with
  | append env name op data =>
    obtain ⟨-, hwal, -, happended, -⟩ := append_step_room h.ok hroom hstep
    refine ⟨hidle.ok.records, ?_, ?_, ?_, ?_⟩
    · rw [happended, List.map_append, hg.numbers, List.length_append, List.length_singleton, List.range'_1_concat]
      simp [hnext, Nat.add_comm]
    · rw [happended, hwal, List.length_append, List.length_singleton]
      simp only [xdeviceWalGetStats, XdeviceWal.endAppend, hnext]
      rw [add64_eq (by omega), sub64_eq (by omega) (by omega)]
      omega
    · have hwrites : s.wal.totalWrites = s.appended.length := hg.totalWrites
      rw [happended, hwal, List.length_append, List.length_singleton]
      simp only [xdeviceWalGetStats, XdeviceWal.endAppend, hwrites]
      exact add64_eq (by omega)
    · rw [happended, hwal]
      rcases hg.synced with hzero | ⟨a, ha, hlsn⟩
      · exact .inl hzero
      · exact .inr ⟨a, List.mem_append_left _ ha, hlsn⟩
  | sync msyncOk fsyncOk =>
    rcases sync_step hstep with ⟨-, rfl⟩ | ⟨-, rfl⟩
    · exact ⟨hg.records, hg.numbers, hg.currentLsn, hg.totalWrites, hg.synced⟩
    · refine ⟨hg.records, hg.numbers, hg.currentLsn, hg.totalWrites, ?_⟩
      -- the last record, if there is one, has the last number
      have hlast : sub64 s.wal.nextLsn 1 = s.appended.length := hg.currentLsn
      simp only [xdeviceWalGetStats, hlast]
      by_cases hempty : s.appended.length = 0
      · exact .inl hempty
      · have hmem : s.appended.length ∈ s.appended.map WalAppended.lsn := by
          rw [hg.numbers, List.mem_range'_1]
          omega
        exact .inr (List.mem_map.1 hmem)

end

/-! ## Main theorem -/

theorem noGaps_new {env : WalCreateEnv} {initialSize : Nat} {region : Bytes} {wal : XdeviceWal}
    (hcreate : xdeviceWalCreate env [] initialSize = (region, some wal)) :
    WalLogIdle ⟨wal, region, []⟩ ∧ NoGaps ⟨wal, region, []⟩ := by
  have hok := walLogOk_new hcreate
  obtain ⟨rfl, -⟩ := create_new hcreate
  exact ⟨⟨hok, Nat.zero_le _, rfl⟩, hok.records, rfl, sub64_eq (Nat.le_refl 1) (Nat.one_lt_two_pow (by omega)), rfl, .inl rfl⟩

/-- Over any run of a new log: failing calls change nothing and there are no gaps in any
state, just when every append finds room. -/
theorem wal_no_gaps_iff {env : WalCreateEnv} {initialSize : Nat} {region : Bytes} {wal : XdeviceWal}
    (hcreate : xdeviceWalCreate env [] initialSize = (region, some wal)) (calls : List WalCall) :
    (walLog.Along AtomicCall ⟨wal, region, []⟩ calls ∧ walLog.Always NoGaps ⟨wal, region, []⟩ calls) ↔
      walLog.Along FindsRoom ⟨wal, region, []⟩ calls := by
  obtain ⟨hidle, hgaps⟩ := noGaps_new hcreate
  have hatomic : walLog.Along AtomicCall ⟨wal, region, []⟩ calls ↔ walLog.Along FindsRoom ⟨wal, region, []⟩ calls :=
    Machine.along_iff (A := fun _ => True) (fun _ _ _ _ h _ _ hs => walLogIdle_step h hs)
      (fun _ c h _ => atomicCall_iff h c) hidle fun _ _ => trivial
  have halways : walLog.Always NoGaps ⟨wal, region, []⟩ calls ↔ walLog.Along FindsRoom ⟨wal, region, []⟩ calls := by
    refine Machine.always_iff_along (A := fun _ => True) (fun s c s' code h hg _ hroom hs => ?_)
      (fun s c h hg _ hroom => ?_) hidle hgaps fun _ _ => trivial
    · exact ⟨walLogIdle_step h hs, noGaps_step h hg hroom hs⟩
    · cases c with
      | append env name op data =>
        refine ⟨_, _, append_step_full hroom, fun hg' => ?_⟩
        have hnext := hg.next h
        have hnext' := hg'.next (@walLogIdle_step s _ (.append env name op data) _ h (append_step_full hroom))
        have hlt := h.count_lt
        simp only [XdeviceWal.failAppend, add64] at hnext'
        omega
      | sync msyncOk fsyncOk => exact absurd trivial hroom
  rw [hatomic, halways, and_self]

/-- An append of some bytes at time zero. -/
def appendOf (data : Bytes) : WalCall := .append ⟨0, fun _ => 0⟩ (cstr "dev") .write data

theorem newLog_no_gaps :
    (walLog.Along AtomicCall ⟨.opened 400, (newLog 400).1, []⟩ [appendOf [1], .sync true true, appendOf []] ∧
      walLog.Always NoGaps ⟨.opened 400, (newLog 400).1, []⟩ [appendOf [1], .sync true true, appendOf []]) := by
  have hcreate : newLog 400 = ((newLog 400).1, some (.opened 400)) := rfl
  exact (wal_no_gaps_iff hcreate _).2 (by decide +kernel)

/-- An append that finds no room takes number one; the first record gets number two. -/
theorem failed_append_leaves_gap :
    newLog 200 = ((newLog 200).1, some (.opened 200)) ∧
    ((walLog.run ⟨.opened 200, (newLog 200).1, []⟩ [appendOf [1], appendOf []]).map fun r =>
      (r.2, r.1.appended.map WalAppended.lsn, (xdeviceWalGetStats r.1.wal).currentLsn,
        (xdeviceWalGetStats r.1.wal).totalWrites)) = some ([.io, .ok], [2], 2, 1) ∧
    ¬ (walLog.Along AtomicCall ⟨.opened 200, (newLog 200).1, []⟩ [appendOf [1], appendOf []] ∧
      walLog.Always NoGaps ⟨.opened 200, (newLog 200).1, []⟩ [appendOf [1], appendOf []]) := by
  refine ⟨rfl, by decide +kernel, ?_⟩
  rintro ⟨⟨hatomic, -⟩, -⟩
  have hfull : ¬ (XdeviceWal.opened 200).HasRoom [(1 : Byte)].length := by decide
  have hsame := hatomic _ _ (append_step_full hfull) nofun
  exact absurd (congrArg (fun s => s.wal.nextLsn) hsame) (by decide)

end XDevice
