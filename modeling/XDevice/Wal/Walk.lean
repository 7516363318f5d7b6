import XDevice.Wal.Records
import Mathlib.Data.List.TakeWhile
/-!
# Reading the records back

A reader starts behind the file header and goes from record to record by their stored
lengths. The length is stored in 32 bits and the last byte of the name field is never
written, so that a record comes back as it was appended just when its payload is shorter
than 4 GiB and its name has its terminator.
-/
open Lib

namespace XDevice

/-- What a reader makes of a record: the fields of `xdevice_wal_entry_t` that the record
header has, and the payload. -/
structure WalEntry where
  lsn : Nat
  opType : Nat
  deviceName : CString
  payload : Bytes
  deriving DecidableEq

/-- `char device_name[XDEVICE_MAX_DEVICE_NAME_LEN]` as a string. -/
def nameOf (bytes : Bytes) : CString := bytes.takeWhile (· ≠ 0)

/-- The records that lie one behind the other in `b`, if they end where it ends. -/
def walkRecords (b : Bytes) : Option (List WalEntry) :=
  if _hempty : b = [] then some []
  else
    let length := ofLeBytes (field b 8 4)
    if b.length < walRecordHeaderSize + length then none
    else
      (walkRecords (b.drop (walRecordHeaderSize + length))).map fun entries =>
        ⟨ofLeBytes (field b 0 8), ofLeBytes (field b 24 4), nameOf (field b 28 xdeviceMaxDeviceNameLen),
          field b walRecordHeaderSize length⟩ :: entries
termination_by b.length
decreasing_by
  have := List.length_pos_iff.2 ‹_›
  simp only [List.length_drop, walRecordHeaderSize]
  omega

/-- What should come back of an append. -/
def WalAppended.entry (a : WalAppended) : WalEntry := ⟨a.lsn, a.opType.value.toNat, a.deviceName, a.data⟩

/-- The payload fits the length field, and the name has a terminator in its field. -/
def WalAppended.Decodable (a : WalAppended) : Prop :=
  a.data.length < 2 ^ 32 ∧ (a.deviceName.length < xdeviceMaxDeviceNameLen - 1 ∨ a.env.stack 155 = 0)

/-- Walking from the file header on ends at the current offset, with the successful
appends in order. -/
def ReadsBack (s : WalLog) : Prop := walkRecords s.records = some (s.appended.map WalAppended.entry)

/-- A C string that fits a device name, and a payload that can be in memory. -/
def WalCall.Proper : WalCall → Prop
  | .append _ deviceName _ data => 0 ∉ deviceName ∧ deviceName.length < xdeviceMaxDeviceNameLen ∧ data.length < 2 ^ 63
  | .sync _ _ => True

/-- If there is room for the record at all, then it is decodable. -/
def FitsRecord (s : WalLog) : WalCall → Prop
  | .append env deviceName opType data =>
    s.wal.HasRoom data.length → (WalAppended.mk env s.wal.nextLsn deviceName opType data).Decodable
  | .sync _ _ => True

/-! ## The fields of a record header -/

section
variable (stack : Nat → Byte) (lsn now : Nat) (deviceName : CString) (opType : XdeviceWalOpType) (data : Bytes)

/-- What the fields of a record header hold; the name field ends with a byte of old
memory. -/
theorem field_walRecordHeader :
    field (walRecordHeader stack lsn now deviceName opType data) 0 8 = leBytes 8 lsn ∧
    field (walRecordHeader stack lsn now deviceName opType data) 8 4 = leBytes 4 data.length ∧
    field (walRecordHeader stack lsn now deviceName opType data) 24 4 = leBytes 4 opType.value.toNat ∧
    field (walRecordHeader stack lsn now deviceName opType data) 28 128 = deviceNameBytes deviceName ++ [stack 155] := by
  have hname := length_deviceNameBytes deviceName
  have hblock : (freshBlock stack walRecordHeaderSize).length = 160 := length_freshBlock ..
  have hbyte : field (freshBlock stack walRecordHeaderSize) 155 1 = [stack 155] := rfl
  refine ⟨?_, ?_, ?_, ?_⟩ <;> unfold walRecordHeader <;> dsimp only
  · simp (disch := simp [hblock, hname]) only [field_writeAt_disjoint, field_writeAt]
  · simp (disch := simp [hblock, hname]) only [field_writeAt_disjoint, field_writeAt]
  · simp (disch := simp [hblock, hname]) only [field_writeAt_disjoint, field_writeAt]
  · rw [field_add 28 127 1]
    simp (disch := simp [hblock, hname]) only [field_writeAt_disjoint, field_writeAt, hbyte]

end

/-! ## Names -/

theorem nameOf_append_zero {name : CString} (h : 0 ∉ name) (rest : Bytes) : nameOf (name ++ 0 :: rest) = name := by
  rw [nameOf, List.takeWhile_append_of_pos, List.takeWhile_cons_of_neg (by simp), List.append_nil]
  intro x hx
  simp only [ne_eq, decide_eq_true_eq]
  rintro rfl
  exact h hx

theorem nameOf_of_not_mem {name : CString} (h : 0 ∉ name) : nameOf name = name := by
  rw [nameOf, List.takeWhile_eq_self_iff]
  intro x hx
  simp only [ne_eq, decide_eq_true_eq]
  rintro rfl
  exact h hx

/-- A name comes back from its field unless it fills all of the field but the last byte
and that byte is no terminator. -/
theorem nameOf_deviceNameBytes {name : CString} (hzero : 0 ∉ name) (hlen : name.length < xdeviceMaxDeviceNameLen) (last : Byte) :
    nameOf (deviceNameBytes name ++ [last]) = name ↔ name.length < xdeviceMaxDeviceNameLen - 1 ∨ last = 0 := by
  have hcopy : strncpy name (xdeviceMaxDeviceNameLen - 1) = name := strncpy_eq (by omega)
  by_cases hshort : name.length < xdeviceMaxDeviceNameLen - 1
  · obtain ⟨k, hk⟩ := Nat.exists_eq_succ_of_ne_zero (Nat.sub_ne_zero_of_lt hshort)
    refine iff_of_true ?_ (.inl hshort)
    rw [deviceNameBytes, hcopy, padTo, hk, List.replicate_succ, List.append_assoc]
    exact nameOf_append_zero hzero _
  · have hpad : deviceNameBytes name = name := by
      rw [deviceNameBytes, hcopy, padTo, Nat.sub_eq_zero_of_le (by omega), List.replicate_zero, List.append_nil]
    rw [hpad]
    by_cases hlast : last = 0
    · subst hlast
      exact iff_of_true (nameOf_append_zero hzero []) (.inr rfl)
    · refine iff_of_false ?_ (by simp [hshort, hlast])
      rw [nameOf_of_not_mem (by simp [hzero, Ne.symm hlast])]
      simp

/-! ## The walk -/

theorem walkRecords_nil : walkRecords [] = some [] := by
  rw [walkRecords, dif_pos rfl]

/-- The payload is found as long as its length modulo the width of the field, and the
rest of it is taken for the next record. -/
theorem walkRecords_record (a : WalAppended) (hlsn : a.lsn < 2 ^ 64) (rest : Bytes) :
    walkRecords (a.bytes ++ rest) =
      (walkRecords ((a.data ++ rest).drop (a.data.length % 2 ^ 32))).map fun entries =>
        ⟨a.lsn, a.opType.value.toNat, nameOf (deviceNameBytes a.deviceName ++ [a.env.stack 155]),
          a.data.take (a.data.length % 2 ^ 32)⟩ :: entries := by
  obtain ⟨h0, h8, h24, h28⟩ := field_walRecordHeader a.env.stack a.lsn a.env.now a.deviceName a.opType a.data
  have hheader : (walRecordHeader a.env.stack a.lsn a.env.now a.deviceName a.opType a.data).length = 160 :=
    length_walRecordHeader ..
  have hmod : a.data.length % 2 ^ 32 ≤ a.data.length := Nat.mod_le ..
  have hlength : ofLeBytes (leBytes 4 a.data.length) = a.data.length % 2 ^ 32 := ofLeBytes_leBytes ..
  have hnumber : ofLeBytes (leBytes 8 a.lsn) = a.lsn := (ofLeBytes_leBytes ..).trans (Nat.mod_eq_of_lt hlsn)
  have hop : ofLeBytes (leBytes 4 a.opType.value.toNat) = a.opType.value.toNat :=
    (ofLeBytes_leBytes ..).trans (Nat.mod_eq_of_lt a.opType.value.toNat_lt)
  rw [WalAppended.bytes]
  generalize walRecordHeader a.env.stack a.lsn a.env.now a.deviceName a.opType a.data = header at *
  have hfield : ∀ off n, off + n ≤ 160 → field (header ++ (a.data ++ rest)) off n = field header off n := by
    intro off n h
    exact field_append_left (by omega)
  have hpayload : ∀ n ≤ a.data.length, field (header ++ (a.data ++ rest)) 160 n = a.data.take n := by
    intro n h
    rw [field, List.drop_left' hheader, List.take_append_of_le_length h]
  rw [List.append_assoc, walkRecords,
    dif_neg (List.append_ne_nil_of_left_ne_nil (List.ne_nil_of_length_eq_add_one hheader) _)]
  simp only [xdeviceMaxDeviceNameLen, walRecordHeaderSize, hfield 0 8 (by omega), hfield 8 4 (by omega), hfield 24 4 (by omega),
    hfield 28 128 (by omega), h0, h8, h24, h28, hlength, hnumber, hop, hpayload _ hmod]
  rw [if_neg (by simp only [List.length_append]; omega), ← List.drop_drop, List.drop_left' hheader]

/-- Records lying one behind the other come back just when each is decodable. -/
theorem walkRecords_iff {as : List WalAppended} (hlsn : ∀ a ∈ as, a.lsn < 2 ^ 64)
    (hname : ∀ a ∈ as, 0 ∉ a.deviceName ∧ a.deviceName.length < xdeviceMaxDeviceNameLen) :
    walkRecords (as.map WalAppended.bytes).flatten = some (as.map WalAppended.entry) ↔ ∀ a ∈ as, a.Decodable := by
  induction as with
  | nil => exact iff_of_true walkRecords_nil nofun
  | cons a as ih =>
    have ih := ih (fun a ha => hlsn a (List.mem_cons_of_mem _ ha)) (fun a ha => hname a (List.mem_cons_of_mem _ ha))
    obtain ⟨hzero, hlen⟩ := hname a List.mem_cons_self
    rw [List.map_cons, List.flatten_cons, walkRecords_record a (hlsn a List.mem_cons_self), List.map_cons,
      List.forall_mem_cons, Option.map_eq_some_iff, WalAppended.Decodable,
      ← nameOf_deviceNameBytes hzero hlen]
    simp only [WalAppended.entry, List.cons.injEq, WalEntry.mk.injEq, true_and]
    constructor
    · rintro ⟨entries, hwalk, ⟨hname, hdata⟩, rfl⟩
      have hmod : a.data.length % 2 ^ 32 = a.data.length := by
        have := congrArg List.length hdata
        rw [List.length_take] at this
        have := Nat.mod_le a.data.length (2 ^ 32)
        omega
      rw [hmod, List.drop_left] at hwalk
      exact ⟨⟨by omega, hname⟩, ih.1 hwalk⟩
    · rintro ⟨⟨hdata, hname⟩, hrest⟩
      rw [Nat.mod_eq_of_lt hdata, List.drop_left, List.take_length]
      exact ⟨_, ih.2 hrest, ⟨hname, rfl⟩, rfl⟩

/-! ## Main theorem -/

/-- The records are in the mapping, and all names fit. -/
structure WalNamed (s : WalLog) : Prop where
  ok : WalLogOk s
  names : ∀ a ∈ s.appended, 0 ∉ a.deviceName ∧ a.deviceName.length < xdeviceMaxDeviceNameLen

theorem WalNamed.readsBack_iff {s : WalLog} (h : WalNamed s) : ReadsBack s ↔ ∀ a ∈ s.appended, a.Decodable := by
  rw [ReadsBack, h.ok.records]
  exact walkRecords_iff h.ok.numbers h.names

/-- A proper call returns, and keeps the records readable unless its own is not. -/
theorem walNamed_step {s : WalLog} {c : WalCall} (h : WalNamed s) (hc : c.Proper) :
    ∃ s' code, walLog.step s c = some (s', code) ∧ WalNamed s' ∧
      ((∀ a ∈ s'.appended, a.Decodable) ↔ (∀ a ∈ s.appended, a.Decodable) ∧ FitsRecord s c) := by
  cases c with
  | append env name op data =>
    obtain ⟨hzero, hlen, hdata⟩ := hc
    by_cases hroom : s.wal.HasRoom data.length
    · obtain ⟨r, hr⟩ := append_returns env name op h.ok.mapped h.ok.inside.1 hdata
      have hstep : walLog.step s (.append env name op data) = _ := congrArg (Option.map _) hr
      obtain ⟨-, hwal, -, happended, hok⟩ := append_step_room h.ok hroom hstep
      refine ⟨_, _, hstep, ⟨hok, ?_⟩, ?_⟩
      · rw [happended, List.forall_mem_append]
        exact ⟨h.names, List.forall_mem_singleton.2 ⟨hzero, hlen⟩⟩
      · rw [happended, List.forall_mem_append, List.forall_mem_singleton, FitsRecord]
        simp only [hroom, true_imp_iff]
    · refine ⟨_, _, append_step_full hroom, ⟨h.ok.failAppend, h.names⟩, ?_⟩
      exact (and_iff_left fun hroom' => absurd hroom' hroom).symm
  | sync msyncOk fsyncOk =>
    have hstep : walLog.step s (.sync msyncOk fsyncOk) = _ := rfl
    have hok := walLog_keeps s _ _ _ h.ok hstep
    exact ⟨_, _, hstep, ⟨hok, h.names⟩, (and_iff_left trivial).symm⟩

/-- After any calls on a new log, walking from the file header by the stored lengths
ends at the current offset and gives the successful appends in order, just when each
append that found room had a payload of less than 4 GiB and a terminated name. -/
theorem wal_walk_iff {env : WalCreateEnv} {initialSize : Nat} {region : Bytes} {wal : XdeviceWal}
    (hcreate : xdeviceWalCreate env [] initialSize = (region, some wal)) {calls : List WalCall}
    (hproper : ∀ c ∈ calls, c.Proper) :
    ∃ s codes, walLog.run ⟨wal, region, []⟩ calls = some (s, codes) ∧
      (ReadsBack s ↔ walLog.Along FitsRecord ⟨wal, region, []⟩ calls) := by
  have hok := walLogOk_new hcreate
  obtain ⟨s, codes, hrun, hnamed, hiff⟩ := Machine.run_iff_along (M := walLog)
    (P := fun s => ∀ a ∈ s.appended, a.Decodable) (fun _ _ => walNamed_step) ⟨hok, nofun⟩ hproper
  refine ⟨s, codes, hrun, ?_⟩
  rw [hnamed.readsBack_iff, hiff]
  exact and_iff_right nofun

theorem newLog_walk :
    ∃ s codes, walLog.run ⟨.opened 700, (newLog 700).1, []⟩ [appendOf [1, 2], appendOf [], .sync true true] = some (s, codes) ∧
      ReadsBack s := by
  have hcreate : newLog 700 = ((newLog 700).1, some (.opened 700)) := rfl
  have hproper : ∀ c ∈ [appendOf [1, 2], appendOf [], .sync true true], c.Proper := by
    simp [appendOf, WalCall.Proper, cstr, xdeviceMaxDeviceNameLen]
  obtain ⟨s, codes, hrun, hiff⟩ := wal_walk_iff hcreate hproper
  have hshort : (cstr "dev").length < xdeviceMaxDeviceNameLen - 1 := by decide
  exact ⟨s, codes, hrun, hiff.2 ⟨fun _ => ⟨by decide, .inl hshort⟩, fun _ _ _ =>
    ⟨fun _ => ⟨Nat.two_pow_pos 32, .inl hshort⟩, fun _ _ _ => ⟨trivial, fun _ _ _ => trivial⟩⟩⟩⟩

/-- A payload of 4 GiB is stored with length zero: a reader takes its first bytes for
the next record. -/
theorem large_payload_lost :
    ∃ s, newLog (2 ^ 33) = ((newLog (2 ^ 33)).1, some (.opened (2 ^ 33))) ∧
      walLog.run ⟨.opened (2 ^ 33), (newLog (2 ^ 33)).1, []⟩ [appendOf (List.replicate (2 ^ 32) 0)] = some (s, [.ok]) ∧
      ¬ ReadsBack s := by
  have hlen : (List.replicate (2 ^ 32) (0 : Byte)).length = 2 ^ 32 := List.length_replicate
  generalize List.replicate (2 ^ 32) (0 : Byte) = payload at hlen
  have hcreate : newLog (2 ^ 33) = ((newLog (2 ^ 33)).1, some (.opened (2 ^ 33))) := rfl
  have hok : WalNamed ⟨.opened (2 ^ 33), (newLog (2 ^ 33)).1, []⟩ := ⟨walLogOk_new hcreate, nofun⟩
  have hroom : (XdeviceWal.opened (2 ^ 33)).HasRoom payload.length := by
    rw [hlen]
    decide
  have hproper : (appendOf payload).Proper := ⟨by decide, by decide, by rw [hlen]; decide⟩
  obtain ⟨s, code, hstep, hnamed, hiff⟩ := walNamed_step hok hproper
  obtain rfl := (append_step_room hok.ok hroom hstep).1
  refine ⟨s, hcreate, Machine.run_cons_eq_some.2 ⟨s, _, [], hstep, rfl, rfl⟩, fun hreads => ?_⟩
  have hfits := (hiff.1 (hnamed.readsBack_iff.1 hreads)).2 hroom
  exact absurd hfits.1 (by dsimp only; omega)

end XDevice
