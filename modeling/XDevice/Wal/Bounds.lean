import XDevice.Wal.Records
import XDevice.Wal.Header
/-!
# Where records are written

The mapping is of as many bytes as the file header says. Behind the end of the file it
shows the rest of the last page, and takes writes there that no file gets. The check of
the space looks at the size in the header and at a sum of 64 bits.
-/
open Lib

namespace XDevice

/-! ## Ranges and room -/

/-- The range of the next record, over exact integers, is behind the header, within the
size of the header and within a file of `fileLength` bytes. -/
def XdeviceWal.RecordInside (wal : XdeviceWal) (fileLength length : Nat) : Prop :=
  walHeaderSize ≤ wal.currentOffset ∧
    wal.currentOffset + (walRecordHeaderSize + length) ≤ min wal.fileSize fileLength

/-- A record that the check of the space accepts, or that is appended, is inside. -/
def StaysInFile (fileLength : Nat) (s : WalLog) : WalCall → Prop
  | .append env deviceName opType data =>
    (s.wal.HasRoom data.length ∨ ∃ s', walLog.step s (.append env deviceName opType data) = some (s', .ok)) →
      s.wal.RecordInside fileLength data.length
  | .sync _ _ => True

/-- The file is as long as the handle says, or the handle leaves no room for a record. -/
def XdeviceWal.FitsFile (wal : XdeviceWal) (fileLength : Nat) : Prop :=
  wal.fileSize ≤ fileLength ∨ wal.fileSize < walHeaderSize + walRecordHeaderSize

instance (wal : XdeviceWal) (fileLength : Nat) : Decidable (wal.FitsFile fileLength) := inferInstanceAs (Decidable (_ ∨ _))

/-- The end of the record is a word of 64 bits, or too large for the handle even as it wraps. -/
def RefusesWrap (s : WalLog) : WalCall → Prop
  | .append _ _ _ data =>
    let recordEnd := s.wal.currentOffset + (walRecordHeaderSize + data.length)
    2 ^ 64 ≤ recordEnd → s.wal.fileSize < recordEnd - 2 ^ 64
  | .sync _ _ => True

instance : ∀ s c, Decidable (RefusesWrap s c)
  | _, .append _ _ _ _ => inferInstanceAs (Decidable (_ → _))
  | _, .sync _ _ => .isTrue trivial

/-- A payload whose length is a `size_t`. -/
def WalCall.Words : WalCall → Prop
  | .append _ _ _ data => data.length < 2 ^ 64
  | .sync _ _ => True

instance : ∀ c : WalCall, Decidable c.Words
  | .append _ _ _ _ => inferInstanceAs (Decidable (_ < _))
  | .sync _ _ => .isTrue trivial

/-! ## The check of the space -/

section
variable {wal : XdeviceWal} {fileLength length : Nat}

/-- The sum of the check wraps at most once. -/
theorem XdeviceWal.Mapped.hasRoom_iff (hm : wal.Mapped) (hlen : length < 2 ^ 64) :
    wal.HasRoom length ↔
      (wal.currentOffset + (walRecordHeaderSize + length) < 2 ^ 64 →
        wal.currentOffset + (walRecordHeaderSize + length) ≤ wal.fileSize) ∧
      (2 ^ 64 ≤ wal.currentOffset + (walRecordHeaderSize + length) →
        wal.currentOffset + (walRecordHeaderSize + length) - 2 ^ 64 ≤ wal.fileSize) := by
  have hsize : wal.fileSize ≤ 2 ^ 56 := hm.size
  have hoffset := hm.offset
  unfold XdeviceWal.HasRoom add64
  rw [Nat.add_mod_mod]
  simp only [walRecordHeaderSize, walHeaderSize] at hoffset ⊢
  omega

/-- Where the file fits, the check accepts only records that are inside, just when the end of
the record does not wrap, and is not accepted for it. -/
theorem XdeviceWal.Mapped.room_inside_iff (hm : wal.Mapped) (hfits : wal.FitsFile fileLength) (hlen : length < 2 ^ 64) :
    (wal.HasRoom length → wal.RecordInside fileLength length) ↔
      (2 ^ 64 ≤ wal.currentOffset + (walRecordHeaderSize + length) →
        wal.fileSize < wal.currentOffset + (walRecordHeaderSize + length) - 2 ^ 64) := by
  have hsize : wal.fileSize ≤ 2 ^ 56 := hm.size
  have hstart := hm.start
  rw [hm.hasRoom_iff hlen]
  unfold XdeviceWal.RecordInside
  by_cases hword : wal.currentOffset + (walRecordHeaderSize + length) < 2 ^ 64
  · refine iff_of_true (fun hroom => ⟨hstart, Nat.le_min.2 ⟨hroom.1 hword, ?_⟩⟩) fun hwrap => absurd hwrap (Nat.not_le.2 hword)
    have hlast := hroom.1 hword
    rcases hfits with hfits | hfull
    · exact Nat.le_trans hlast hfits
    · simp only [walRecordHeaderSize, walHeaderSize] at hstart hlast hfull
      omega
  · have hwrap := Nat.not_lt.1 hword
    constructor
    · intro h _
      by_contra hrefused
      have hinside := (h ⟨fun hlt => absurd hlt hword, fun _ => Nat.not_lt.1 hrefused⟩).2
      omega
    · rintro h ⟨-, haccepted⟩
      exact absurd (haccepted hwrap) (Nat.not_le.2 (h hwrap))

/-- Where it does not, a new handle has room for a record that ends where the handle says. -/
theorem XdeviceWal.record_past_end {size : Nat} (hfits : ¬ (XdeviceWal.opened size).FitsFile fileLength) :
    walHeaderSize + (walRecordHeaderSize + (size - (walHeaderSize + walRecordHeaderSize))) = size ∧
      (XdeviceWal.opened size).HasRoom (size - (walHeaderSize + walRecordHeaderSize)) ∧
      ¬ (XdeviceWal.opened size).RecordInside fileLength (size - (walHeaderSize + walRecordHeaderSize)) := by
  have hopened : (XdeviceWal.opened size).fileSize = size ∧ (XdeviceWal.opened size).currentOffset = walHeaderSize :=
    ⟨rfl, rfl⟩
  obtain ⟨hsize, hoffset⟩ := hopened
  unfold XdeviceWal.FitsFile at hfits
  rw [hsize, not_or, Nat.not_le, Nat.not_lt] at hfits
  obtain ⟨hlong, hroom⟩ := hfits
  have hend : walHeaderSize + (walRecordHeaderSize + (size - (walHeaderSize + walRecordHeaderSize))) = size := by omega
  refine ⟨hend, ?_, fun hinside => ?_⟩
  · unfold XdeviceWal.HasRoom add64
    rw [hsize, hoffset, Nat.add_mod_mod, hend]
    exact Nat.mod_le _ _
  · have hlast := hinside.2
    rw [hsize, hoffset, hend] at hlast
    omega

end

/-! ## Every call -/

section
variable {s s' : WalLog} {c : WalCall} {code : XdeviceError} {fileLength : Nat}

/-- Only what the check accepts is appended. -/
theorem hasRoom_of_ok {env : WalEnv} {name : CString} {op : XdeviceWalOpType} {data : Bytes}
    (h : walLog.step s (.append env name op data) = some (s', .ok)) : s.wal.HasRoom data.length := by
  by_contra hfull
  rw [append_step_full hfull] at h
  cases h

theorem staysInFile_iff (hm : s.wal.Mapped) (hfits : s.wal.FitsFile fileLength) (hw : c.Words) :
    StaysInFile fileLength s c ↔ RefusesWrap s c := by
  cases c with
  | append env name op data =>
    have hroom : StaysInFile fileLength s (.append env name op data) ↔
        (s.wal.HasRoom data.length → s.wal.RecordInside fileLength data.length) := by
      constructor
      · exact fun h hroom => h (.inl hroom)
      · rintro h (hroom | ⟨s', hok⟩)
        · exact h hroom
        · exact h (hasRoom_of_ok hok)
    rw [hroom]
    exact hm.room_inside_iff hfits hw
  | sync msyncOk fsyncOk => exact Iff.rfl

/-- The next record starts inside the mapping after every call, whatever the mapping shows
behind the end of the file, and the size in the handle stays. -/
theorem walLog_mapped : walLog.Keeps fun s => s.wal.Mapped ∧ s.wal.FitsFile fileLength := by
  rintro s c s' code ⟨hm, hfits⟩ h
  cases c with
  | append env name op data =>
    obtain ⟨⟨wal', region', code'⟩, hcall, he⟩ := Option.map_eq_some_iff.1 h
    cases he
    rcases append_cases hm hcall with ⟨-, -, rfl⟩ | ⟨-, hinside, -, rfl⟩
    · exact ⟨⟨hm.size, hm.start, hm.offset⟩, hfits⟩
    · have hlast := Nat.le_trans hinside (Nat.min_le_left _ _)
      exact ⟨⟨hm.size, Nat.le_add_right_of_le hm.start, Nat.le_trans hlast (Nat.le_max_left _ _)⟩, hfits⟩
  | sync msyncOk fsyncOk =>
    rcases sync_step h with ⟨-, rfl⟩ | ⟨-, rfl⟩
    · exact ⟨⟨hm.size, hm.start, hm.offset⟩, hfits⟩
    · exact ⟨⟨hm.size, hm.start, hm.offset⟩, hfits⟩

end

/-! ## Main theorem -/

/-- A new log has a file as long as its handle says, and any other one a file that is as long as
it was, under a handle that goes by the header. Just when this fits, the records that are
accepted or appended in a run are inside the size of the header and the file for no other
reason than that no end of a record wraps and is accepted for it. -/
theorem wal_stays_in_file_iff {env : WalCreateEnv} {file file' : Bytes} {initialSize : Nat} {wal : XdeviceWal}
    (hcreate : xdeviceWalCreate env file initialSize = (file', some wal)) (lastPage : Bytes) :
    ((file = [] → wal.fileSize = initialSize ∧ wal.fileSize ≤ file'.length) ∧
      (file ≠ [] → wal.fileSize = walHeaderFileSize (file.take walHeaderSize) ∧ file' = file)) ∧
    (wal.FitsFile file'.length ↔ ∀ calls, (∀ c ∈ calls, c.Words) →
      (walLog.Along (StaysInFile file'.length) ⟨wal, file' ++ lastPage, []⟩ calls ↔
        walLog.Along RefusesWrap ⟨wal, file' ++ lastPage, []⟩ calls)) := by
  obtain ⟨size, rfl, hmapped, hfile⟩ := create_spec hcreate
  refine ⟨⟨fun hnew => ?_, fun hold => ?_⟩, fun hfits calls hwords => ?_, fun hall => ?_⟩
  · rcases hfile with ⟨-, hsize, hle⟩ | ⟨hold, -⟩
    · exact ⟨hsize, hle⟩
    · exact absurd hnew hold
  · rcases hfile with ⟨hnew, -⟩ | ⟨-, hsame, hsize⟩
    · exact absurd hnew hold
    · exact ⟨hsize, hsame⟩
  · exact Machine.along_iff (A := WalCall.Words) (fun s c s' code hI _ _ hs => walLog_mapped s c s' code hI hs)
      (fun s c hI hw => staysInFile_iff hI.1 hI.2 hw) ⟨hmapped, hfits⟩ hwords
  -- the record that ends where the handle says is accepted and past the end of the file
  · by_contra hfits
    obtain ⟨hend, hroom, hout⟩ := XdeviceWal.record_past_end hfits
    have hsize : size ≤ 2 ^ 56 := hmapped.size
    let data : Bytes := List.replicate (size - (walHeaderSize + walRecordHeaderSize)) 0
    have hlen : data.length = size - (walHeaderSize + walRecordHeaderSize) := List.length_replicate
    have hwords : ∀ c ∈ [appendOf data], c.Words := by
      intro c hc
      rw [List.mem_singleton.1 hc]
      show data.length < 2 ^ 64
      omega
    have hrefuses : RefusesWrap ⟨.opened size, file' ++ lastPage, []⟩ (appendOf data) := by
      show 2 ^ 64 ≤ walHeaderSize + (walRecordHeaderSize + data.length) → _
      intro hwrap
      rw [hlen, hend] at hwrap
      omega
    have hstays := ((hall [appendOf data] hwords).2 ⟨hrefuses, fun _ _ _ => trivial⟩).1
    rw [← hlen] at hroom hout
    exact hout (hstays (.inl hroom))

/-- Two records of a new log and one that finds no room. -/
theorem new_log_in_file :
    walLog.Along (StaysInFile (newLog 400).1.length) ⟨.opened 400, (newLog 400).1 ++ [], []⟩
      [appendOf [1], .sync true true, appendOf [], appendOf [2]] := by
  have hcreate : newLog 400 = ((newLog 400).1, some (.opened 400)) := rfl
  exact ((wal_stays_in_file_iff hcreate []).2.1 (.inl (by decide +kernel)) _ (by decide)).2 (by decide +kernel)

/-- A file of no more than a header that says 400 bytes, on a page of 4096. -/
def headerOnly : Bytes := createWalHeader (memoryEnv 0x6361CE25).stack 0 400

/-- The file is opened, and a record is appended behind its end. In a new log the check also
accepts a record of nearly 2⁶⁴ bytes. -/
theorem record_behind_end :
    xdeviceWalCreate (memoryEnv 0) headerOnly 400 = (headerOnly, some (.opened 400)) ∧ headerOnly.length = 40 ∧
    ((walLog.run ⟨.opened 400, headerOnly ++ List.replicate 4056 0, []⟩ [appendOf []]).map fun r =>
      (r.2, r.1.wal.currentOffset)) = some ([.ok], 200) ∧
    ¬ walLog.Along (StaysInFile 40) ⟨.opened 400, headerOnly ++ List.replicate 4056 0, []⟩ [appendOf []] ∧
    (XdeviceWal.opened 400).HasRoom (2 ^ 64 - 160) ∧ ¬ (XdeviceWal.opened 400).RecordInside 400 (2 ^ 64 - 160) := by
  have hroom : (XdeviceWal.opened 400).HasRoom ([] : Bytes).length := by decide
  refine ⟨by decide +kernel, by decide +kernel, by decide +kernel, ?_, by decide, fun h => absurd h.2 (by decide)⟩
  rintro ⟨h, -⟩
  exact absurd (h (.inl hroom)).2 (by decide)

end XDevice
