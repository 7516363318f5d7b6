import XDevice.Wal.Engine
import XDevice.Lib.Machine
/-!
# Closing and reopening the log

A log that is opened again starts over: its next record goes behind the header and
gets number one. What an earlier session appended survives just as long as no
later session appends anything.
-/
open Lib

namespace XDevice

/-- What is done to one log file, session after session. -/
inductive WalEvent where
  | create (env : WalCreateEnv) (initialSize : Nat)
  | append (env : WalEnv) (deviceName : CString) (opType : XdeviceWalOpType) (data : Bytes)
  | sync (msyncOk fsyncOk : Bool)
  | destroy (msyncOk fsyncOk : Bool)

/-- The log file, its handle during a session, the records of the sessions before
and of this one. -/
structure WalSessions where
  file : Bytes
  wal : Option XdeviceWal
  earlier : List WalRecord
  current : List WalRecord

/-- No file yet. -/
def noLog : WalSessions := ⟨[], none, [], []⟩

/-- Sessions of successful calls: a call that fails leads nowhere. `accepts` is the
check a stored header has to pass. Closing a log syncs it first, whatever comes of it. -/
def walSessions (accepts : Bytes → Bool) : Machine WalSessions WalEvent XdeviceError where
  step s
    | .create env initialSize =>
      match s.wal, createWalIf accepts env s.file initialSize with
      | none, (file, some wal) => some ({ s with file := file, wal := some wal }, .ok)
      | _, _ => none
    | .append env deviceName opType data =>
      s.wal.bind fun wal => (xdeviceWalAppend env wal s.file deviceName opType data).bind fun (wal', file, code) =>
        if code = .ok then
          some ({ s with
            file := file
            wal := some wal'
            current := s.current ++ [walRecordOf env wal deviceName opType data] }, .ok)
        else none
    | .sync msyncOk fsyncOk =>
      s.wal.bind fun wal =>
        let (wal, code) := xdeviceWalSync msyncOk fsyncOk wal
        if code = .ok then some ({ s with wal := some wal }, .ok) else none
    | .destroy _ _ =>
      s.wal.map fun _ => ({ s with wal := none, earlier := s.earlier ++ s.current, current := [] }, .ok)

/-- The bytes of a record are in the file as they were appended. -/
def WalRecord.In (r : WalRecord) (file : Bytes) : Prop := field file r.offset r.bytes.length = r.bytes

/-- The records of earlier sessions are all in the file, and the numbers given out
since are above theirs. -/
def Survives (s : WalSessions) : Prop :=
  (∀ r ∈ s.earlier, r.In s.file) ∧ ∀ r ∈ s.earlier, ∀ r' ∈ s.current, r.lsn < r'.lsn

/-- Records are only appended while there are none from an earlier session. -/
def FirstToAppend (s : WalSessions) : WalEvent → Prop
  | .append _ _ _ _ => s.earlier = []
  | _ => True

instance : ∀ s e, Decidable (FirstToAppend s e)
  | s, .append _ _ _ _ => inferInstanceAs (Decidable (s.earlier = []))
  | _, .create _ _ | _, .sync _ _ | _, .destroy _ _ => .isTrue trivial

/-! ## What sessions keep -/

/-- The records of this session lie one behind the other in the file, the first with
number one, and no record of any session has number zero or no bytes. -/
structure SessionsOk (s : WalSessions) : Prop where
  mapped : ∀ wal, s.wal = some wal → wal.Mapped
  next : ∀ wal, s.wal = some wal → wal.nextLsn = s.current.length + 1 ∧
    s.current.length * walRecordHeaderSize ≤ wal.currentOffset
  placed : ∀ wal, s.wal = some wal → ∀ r ∈ s.current, r.offset + r.bytes.length ≤ wal.currentOffset
  written : ∀ r ∈ s.current, r.In s.file
  first : s.current ≠ [] → ∃ r ∈ s.current, r.lsn = 1
  records : ∀ r ∈ s.earlier ++ s.current, 1 ≤ r.lsn ∧ r.bytes ≠ []
  closed : s.wal = none → s.current = []

theorem sessionsOk_noLog : SessionsOk noLog := by
  refine ⟨nofun, nofun, nofun, nofun, ?_, nofun, fun _ => rfl⟩
  intro h
  exact absurd rfl h

theorem WalRecord.In.fits {r : WalRecord} {file : Bytes} (h : r.In file) (hne : r.bytes ≠ []) :
    r.offset + r.bytes.length ≤ file.length := by
  have hlen := congrArg List.length h
  have hpos := List.length_pos_iff.2 hne
  simp only [field, List.length_take, List.length_drop] at hlen
  omega

/-- A record stays in the file when something is written behind it. -/
theorem WalRecord.In.behind {r : WalRecord} {file d : Bytes} {off : Nat} (h : r.In file)
    (hoff : r.offset + r.bytes.length ≤ off) (hin : off + d.length ≤ file.length) :
    r.In (Lib.writeAt 0 file off d) := by
  have hlen := Lib.length_writeAt_inside 0 hin
  unfold WalRecord.In at h ⊢
  rw [field_eq_readAt (by omega)] at h
  rw [field_eq_readAt (by omega), Lib.readAt_writeAt_disjoint 0 (.inl hoff)]
  exact h

section
variable {accepts : Bytes → Bool} {s s' : WalSessions} {code : XdeviceError}

theorem create_keeps {env : WalCreateEnv} {initialSize : Nat} (hok : SessionsOk s) (hs : Survives s)
    (h : (walSessions accepts).step s (.create env initialSize) = some (s', code)) : SessionsOk s' ∧ Survives s' := by
  simp only [walSessions] at h
  split at h
  · rename_i file wal hwal hcreate
    cases h
    obtain ⟨size, rfl, hmapped, hfile⟩ := create_spec hcreate
    have hcurrent := hok.closed hwal
    have hearlier : ∀ r ∈ s.earlier, r.In file := by
      intro r hr
      rcases hfile with ⟨hempty, -, -⟩ | ⟨-, rfl, -⟩
      · -- a new file has no records yet
        have hne := (hok.records r (List.mem_append_left _ hr)).2
        have hfits := (hs.1 r hr).fits hne
        have hpos := List.length_pos_iff.2 hne
        rw [hempty, List.length_nil] at hfits
        omega
      · exact hs.1 r hr
    refine ⟨⟨?_, ?_, ?_, ?_, ?_, hok.records, nofun⟩, hearlier, ?_⟩
    · intro wal hw
      cases hw
      exact hmapped
    · intro wal hw
      cases hw
      simp [hcurrent, XdeviceWal.opened]
    · simp [hcurrent]
    · simp [hcurrent]
    · intro hne
      exact absurd hcurrent hne
    · simp [hcurrent]
  · cases h

/-- An append takes the next number, and is the first of its session with number one. -/
theorem append_keeps {env : WalEnv} {name : CString} {op : XdeviceWalOpType} {data : Bytes} (hok : SessionsOk s)
    (h : (walSessions accepts).step s (.append env name op data) = some (s', code)) :
    SessionsOk s' ∧ s'.earlier = s.earlier ∧ ∃ r, s'.current = s.current ++ [r] ∧ r.lsn = s.current.length + 1 := by
  obtain ⟨wal, hwal, h⟩ := Option.bind_eq_some_iff.1 h
  obtain ⟨⟨wal', file, code'⟩, happend, h⟩ := Option.bind_eq_some_iff.1 h
  dsimp only at h
  have hmapped := hok.mapped wal hwal
  obtain ⟨hnext, hcount⟩ := hok.next wal hwal
  rcases append_cases hmapped happend with ⟨rfl, -, -⟩ | ⟨rfl, hroom, rfl, rfl⟩
  · cases h
  rw [if_pos rfl] at h
  cases h
  have hsize : wal.fileSize ≤ 2 ^ 56 := hmapped.size
  have hlen : (walRecordOf env wal name op data).bytes.length = walRecordHeaderSize + data.length := length_walRecordOf
  have hoff : (walRecordOf env wal name op data).offset = wal.currentOffset := rfl
  have hlsn : (walRecordOf env wal name op data).lsn = s.current.length + 1 := hnext
  have hfits : wal.currentOffset + (walRecordOf env wal name op data).bytes.length ≤ s.file.length := by omega
  refine ⟨⟨?_, ?_, ?_, ?_, ?_, ?_, nofun⟩, rfl, _, rfl, hlsn⟩
  · intro wal' hw
    cases hw
    have hstart := hmapped.start
    exact ⟨hmapped.size, Nat.le_add_right_of_le hstart, by simp only [XdeviceWal.endAppend]; omega⟩
  · intro wal' hw
    cases hw
    simp only [XdeviceWal.endAppend, List.length_append, List.length_singleton, Nat.add_mul, hnext]
    simp only [walRecordHeaderSize] at hcount hroom ⊢
    exact ⟨add64_eq (by omega), by omega⟩
  · intro wal' hw r hr
    cases hw
    simp only [XdeviceWal.endAppend]
    rcases List.mem_append.1 hr with hr | hr
    · have := hok.placed wal hwal r hr
      omega
    · rw [List.mem_singleton.1 hr]
      omega
  · intro r hr
    rcases List.mem_append.1 hr with hr | hr
    · exact (hok.written r hr).behind (hok.placed wal hwal r hr) hfits
    · rw [List.mem_singleton.1 hr, WalRecord.In, field_eq_readAt, hoff, Lib.readAt_writeAt]
      rw [Lib.length_writeAt_inside 0 hfits]
      exact hfits
  · intro _
    by_cases hempty : s.current = []
    · exact ⟨_, List.mem_append_right _ List.mem_cons_self, by rw [hlsn, hempty]; rfl⟩
    · obtain ⟨r, hr, h1⟩ := hok.first hempty
      exact ⟨r, List.mem_append_left _ hr, h1⟩
  · intro r hr
    rw [← List.append_assoc] at hr
    rcases List.mem_append.1 hr with hr | hr
    · exact hok.records r hr
    · rw [List.mem_singleton.1 hr]
      refine ⟨by omega, fun he => ?_⟩
      rw [he] at hlen
      simp only [walRecordHeaderSize, List.length_nil] at hlen
      omega

theorem sync_keeps {msyncOk fsyncOk : Bool} (hok : SessionsOk s) (hs : Survives s)
    (h : (walSessions accepts).step s (.sync msyncOk fsyncOk) = some (s', code)) : SessionsOk s' ∧ Survives s' := by
  obtain ⟨wal, hwal, h⟩ := Option.bind_eq_some_iff.1 h
  -- a sync leaves alone all that the records depend on
  have hsame : (xdeviceWalSync msyncOk fsyncOk wal).1.fileSize = wal.fileSize ∧
      (xdeviceWalSync msyncOk fsyncOk wal).1.currentOffset = wal.currentOffset ∧
      (xdeviceWalSync msyncOk fsyncOk wal).1.nextLsn = wal.nextLsn := by
    unfold xdeviceWalSync
    split <;> exact ⟨rfl, rfl, rfl⟩
  obtain ⟨hsize, hoff, hlsn⟩ := hsame
  dsimp only at h
  split at h
  · cases h
    have hmapped := hok.mapped wal hwal
    refine ⟨⟨?_, ?_, ?_, hok.written, hok.first, hok.records, nofun⟩, hs⟩
    · intro wal' hw
      cases hw
      exact ⟨hsize ▸ hmapped.size, hoff ▸ hmapped.start, hoff ▸ hsize ▸ hmapped.offset⟩
    · intro wal' hw
      cases hw
      rw [hlsn, hoff]
      exact hok.next wal hwal
    · intro wal' hw
      cases hw
      rw [hoff]
      exact hok.placed wal hwal
  · cases h

theorem destroy_keeps {msyncOk fsyncOk : Bool} (hok : SessionsOk s) (hs : Survives s)
    (h : (walSessions accepts).step s (.destroy msyncOk fsyncOk) = some (s', code)) : SessionsOk s' ∧ Survives s' := by
  obtain ⟨wal, hwal, he⟩ := Option.map_eq_some_iff.1 h
  cases he
  refine ⟨⟨nofun, nofun, nofun, nofun, ?_, ?_, fun _ => rfl⟩, ?_, nofun⟩
  · intro hne
    exact absurd rfl hne
  · intro r hr
    exact hok.records r (by simpa using hr)
  · intro r hr
    rcases List.mem_append.1 hr with hr | hr
    · exact hs.1 r hr
    · exact hok.written r hr

/-- A step that keeps the condition keeps the records. -/
theorem sessions_keep {e : WalEvent} (hok : SessionsOk s) (hs : Survives s) (hfirst : FirstToAppend s e)
    (h : (walSessions accepts).step s e = some (s', code)) : SessionsOk s' ∧ Survives s' := by
  cases e with
  | create env initialSize => exact create_keeps hok hs h
  | append env name op data =>
    obtain ⟨hok', hearlier, -⟩ := append_keeps hok h
    have hnone : s'.earlier = [] := hearlier.trans hfirst
    refine ⟨hok', ?_, ?_⟩ <;> rw [hnone] <;> exact nofun
  | sync msyncOk fsyncOk => exact sync_keeps hok hs h
  | destroy msyncOk fsyncOk => exact destroy_keeps hok hs h

/-- Behind records of an earlier session, the first append takes number one again. -/
theorem append_breaks {e : WalEvent} (hok : SessionsOk s) (hs : Survives s) (hlate : ¬ FirstToAppend s e)
    (h : (walSessions accepts).step s e = some (s', code)) : ¬ Survives s' := by
  cases e with
  | append env name op data =>
    obtain ⟨-, hearlier, r, hcurrent, hlsn⟩ := append_keeps hok h
    intro hs'
    obtain ⟨r0, hr0⟩ := List.exists_mem_of_ne_nil _ hlate
    have hlow := (hok.records r0 (List.mem_append_left _ hr0)).1
    -- nothing was appended since the log was opened, so this is number one
    have hempty : s.current = [] := by
      by_contra hne
      obtain ⟨r1, hr1, hone⟩ := hok.first hne
      have := hs.2 r0 hr0 r1 hr1
      omega
    have hlt := hs'.2 r0 (hearlier ▸ hr0) r (by rw [hcurrent]; exact List.mem_append_right _ List.mem_cons_self)
    rw [hlsn, hempty, List.length_nil] at hlt
    omega
  | create env initialSize => exact absurd trivial hlate
  | sync msyncOk fsyncOk => exact absurd trivial hlate
  | destroy msyncOk fsyncOk => exact absurd trivial hlate

end

/-- Over any run of successful calls, from no log on and whatever headers are accepted,
all records survive and no number is used again just when nothing is appended behind
an earlier session's records. -/
theorem wal_survives_reopen_iff {accepts : Bytes → Bool} {events : List WalEvent} {s : WalSessions}
    {codes : List XdeviceError} (hrun : (walSessions accepts).run noLog events = some (s, codes)) :
    (walSessions accepts).Always Survives noLog events ↔ (walSessions accepts).Along FirstToAppend noLog events :=
  Machine.always_iff_along_of_run (fun _ _ _ _ => sessions_keep) (fun _ _ _ _ => append_breaks) sessionsOk_noLog
    ⟨nofun, nofun⟩ hrun

/-- Memory that happens to make the header of a log of 400 bytes check out. -/
def luckyStack : Nat → Byte
  | 32 => 37
  | 33 => 206
  | 34 => 97
  | 35 => 99
  | _ => 0

def createLog : WalEvent := .create ⟨true, true, true, true, 0, luckyStack⟩ 400

def appendByte (b : Byte) : WalEvent := .append ⟨0, fun _ => 0⟩ (cstr "dev") .write [b]

/-- A record, synced and left alone when the log is opened again. -/
theorem reopened_log_survives : (walSessions validateWalHeader).Always Survives noLog
    [createLog, appendByte 1, .sync true true, .destroy true true, createLog, .sync true true, .destroy true true] := by
  have hrun : ((walSessions validateWalHeader).run noLog
      [createLog, appendByte 1, .sync true true, .destroy true true, createLog, .sync true true, .destroy true true]).isSome := by
    decide +kernel
  obtain ⟨⟨s, codes⟩, hrun⟩ := Option.isSome_iff_exists.1 hrun
  exact (wal_survives_reopen_iff hrun).2 (by decide +kernel)

/-- A record appended after reopening takes the place and the number of the first. -/
theorem reopened_log_overwritten : ∃ s codes,
    (walSessions validateWalHeader).run noLog [createLog, appendByte 1, .destroy true true, createLog, appendByte 2] = some (s, codes) ∧
    s.earlier.map WalRecord.lsn = [1] ∧ s.current.map WalRecord.lsn = [1] ∧ s.file.getD 200 0 = 2 ∧ ¬ Survives s := by
  have hrun : (((walSessions validateWalHeader).run noLog [createLog, appendByte 1, .destroy true true, createLog, appendByte 2]).map
      fun r => (r.1.earlier.map WalRecord.lsn, r.1.current.map WalRecord.lsn, r.1.file.getD 200 0)) =
        some ([1], [1], 2) := by
    decide +kernel
  obtain ⟨⟨s, codes⟩, hrun, he⟩ := Option.map_eq_some_iff.1 hrun
  obtain ⟨hearlier, hcurrent, hbyte⟩ : s.earlier.map WalRecord.lsn = [1] ∧ s.current.map WalRecord.lsn = [1] ∧
      s.file.getD 200 0 = 2 := by simpa using he
  refine ⟨s, codes, hrun, hearlier, hcurrent, hbyte, ?_⟩
  rintro ⟨-, hnumbers⟩
  obtain ⟨r, hr, h1⟩ := List.mem_map.1 (hearlier ▸ List.mem_cons_self : 1 ∈ s.earlier.map WalRecord.lsn)
  obtain ⟨r', hr', h1'⟩ := List.mem_map.1 (hcurrent ▸ List.mem_cons_self : 1 ∈ s.current.map WalRecord.lsn)
  have := hnumbers r hr r' hr'
  omega

end XDevice
