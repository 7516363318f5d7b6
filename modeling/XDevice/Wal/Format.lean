import XDevice.Common
/-!
# The format of the log

The file header and the record headers of `wal_engine.c` as the bytes x86-64
gives them: words little-endian, each field at a multiple of its size, what is
between and behind them left as it was in memory. The checksums run over all of a
header but its last four bytes, which are not the checksum field.
-/

namespace XDevice

/-! ## Words -/

/-- The low `width` bytes of a number, the lowest first. -/
def leBytes (width n : Nat) : Bytes := (List.range width).map fun i => (n / 256 ^ i).toUInt8

def ofLeBytes (b : Bytes) : Nat := b.foldr (fun x n => x.toNat + 256 * n) 0

/-- The `n` bytes of a field. -/
def field (b : Bytes) (off n : Nat) : Bytes := (b.drop off).take n

theorem field_eq_readAt {b : Bytes} {off n : Nat} (h : off + n ≤ b.length) : field b off n = Lib.readAt 0 b off n :=
  (Lib.readAt_inside 0 h).symm

theorem field_writeAt_disjoint {b d : Bytes} {off off' n : Nat} (hin : off + n ≤ b.length)
    (h : off + n ≤ off' ∨ off' + d.length ≤ off) : field (Lib.writeAt 0 b off' d) off n = field b off n := by
  rw [field_eq_readAt (by rw [Lib.length_writeAt]; omega), Lib.readAt_writeAt_disjoint 0 h, field_eq_readAt hin]

theorem field_writeAt {b d : Bytes} {off n : Nat} (hn : d.length = n) : field (Lib.writeAt 0 b off d) off n = d := by
  subst hn
  rw [field_eq_readAt (by rw [Lib.length_writeAt]; omega), Lib.readAt_writeAt]

theorem field_add {b : Bytes} (off n m : Nat) : field b off (n + m) = field b off n ++ field b (off + n) m := by
  rw [field, List.take_add, List.drop_drop]
  rfl

theorem field_append_left {b c : Bytes} {off n : Nat} (h : off + n ≤ b.length) : field (b ++ c) off n = field b off n := by
  rw [field, List.drop_append_of_le_length (by omega), List.take_append_of_le_length (by rw [List.length_drop]; omega)]
  rfl

@[simp] theorem length_leBytes (width n : Nat) : (leBytes width n).length = width := by simp [leBytes]

theorem leBytes_succ (width n : Nat) : leBytes (width + 1) n = n.toUInt8 :: leBytes width (n / 256) := by
  simp only [leBytes, List.range_succ_eq_map, List.map_cons, List.map_map, Nat.pow_zero, Nat.div_one]
  refine congrArg _ (List.map_congr_left fun i _ => ?_)
  rw [Function.comp_apply, Nat.succ_eq_add_one, Nat.pow_succ', Nat.div_div_eq_div_mul]

/-- The bytes of a number give it back, up to their width. -/
theorem ofLeBytes_leBytes (width n : Nat) : ofLeBytes (leBytes width n) = n % 256 ^ width := by
  induction width generalizing n with
  | zero => rw [Nat.pow_zero, Nat.mod_one]; rfl
  | succ width ih =>
    have htail : ofLeBytes (leBytes width (n / 256)) = n / 256 % 256 ^ width := ih _
    rw [leBytes_succ]
    simp only [ofLeBytes, List.foldr_cons] at htail ⊢
    rw [htail, Nat.pow_succ', Nat.mod_mul, Nat.toUInt8_eq, UInt8.toNat_ofNat']

theorem leBytes_ofLeBytes (b : Bytes) : leBytes b.length (ofLeBytes b) = b := by
  induction b with
  | nil => rfl
  | cons x b ih =>
    have hx := x.toNat_lt
    have hcons : ofLeBytes (x :: b) = x.toNat + 256 * ofLeBytes b := rfl
    have hlow : (x.toNat + 256 * ofLeBytes b).toUInt8 = x := by
      apply UInt8.toNat_inj.1
      rw [Nat.toUInt8_eq, UInt8.toNat_ofNat']
      omega
    have hhigh : (x.toNat + 256 * ofLeBytes b) / 256 = ofLeBytes b := by omega
    rw [hcons, List.length_cons, leBytes_succ, hlow, hhigh, ih]

theorem ofLeBytes_lt (b : Bytes) : ofLeBytes b < 256 ^ b.length := by
  have h := ofLeBytes_leBytes b.length (ofLeBytes b)
  rw [leBytes_ofLeBytes] at h
  rw [h]
  exact Nat.mod_lt _ (Nat.pow_pos (by omega))

/-! ## Checksums -/

/-- One of the eight steps that make an entry of the table. -/
def crcTableStep (crc : BitVec 32) : BitVec 32 :=
  if crc &&& 1#32 ≠ 0#32 then (crc >>> 1) ^^^ 0xEDB88320#32 else crc >>> 1

def crcTable : List (BitVec 32) := (List.range 256).map fun i => Nat.repeat crcTableStep 8 (BitVec.ofNat 32 i)

def crc32Update (crc : BitVec 32) (byte : Byte) : BitVec 32 :=
  crcTable.getD ((crc ^^^ BitVec.ofNat 32 byte.toNat) &&& 0xFF#32).toNat 0#32 ^^^ (crc >>> 8)

def crc32 (data : Bytes) : BitVec 32 := data.foldl crc32Update 0xFFFFFFFF#32 ^^^ 0xFFFFFFFF#32

/-! ## The file header -/

def walMagic : Bytes := cstr "XDEV_WAL"
def walVersion : Nat := 1

/-- `sizeof(wal_header_t)`. -/
def walHeaderSize : Nat := 40

/-- `create_wal_header` at time `now`, in memory that holds `stack`. -/
def createWalHeader (stack : Nat → Byte) (now fileSize : Nat) : Bytes :=
  let header := freshBlock stack walHeaderSize
  let header := Lib.writeAt 0 header 0 walMagic
  let header := Lib.writeAt 0 header 8 (leBytes 4 walVersion)
  let header := Lib.writeAt 0 header 16 (leBytes 8 now)
  let header := Lib.writeAt 0 header 24 (leBytes 8 fileSize)
  Lib.writeAt 0 header 32 (leBytes 4 (crc32 (header.take (walHeaderSize - 4))).toNat)

def validateWalHeader (header : Bytes) : Bool :=
  field header 0 8 = walMagic && ofLeBytes (field header 8 4) = walVersion &&
    (crc32 (header.take (walHeaderSize - 4))).toNat = ofLeBytes (field header 32 4)

def walHeaderFileSize (header : Bytes) : Nat := ofLeBytes (field header 24 8)

/-! ## Records -/

/-- `xdevice_wal_op_type_t`: a word, of which the header names three values. -/
structure XdeviceWalOpType where
  value : UInt32
  deriving DecidableEq, Repr

namespace XdeviceWalOpType

def write : XdeviceWalOpType := ⟨1⟩
def sync : XdeviceWalOpType := ⟨2⟩
def checkpoint : XdeviceWalOpType := ⟨3⟩

end XdeviceWalOpType

/-- `sizeof(wal_record_header_t)`. -/
def walRecordHeaderSize : Nat := 160

/-- `strncpy` of a device name: all but the last byte of the field. -/
def deviceNameBytes (deviceName : CString) : Bytes :=
  Lib.padTo 0 (strncpy deviceName (xdeviceMaxDeviceNameLen - 1)) (xdeviceMaxDeviceNameLen - 1)

/-- The record header that `xdevice_wal_append` fills in memory that holds `stack`. -/
def walRecordHeader (stack : Nat → Byte) (lsn now : Nat) (deviceName : CString) (opType : XdeviceWalOpType)
    (data : Bytes) : Bytes :=
  let header := freshBlock stack walRecordHeaderSize
  let header := Lib.writeAt 0 header 0 (leBytes 8 lsn)
  let header := Lib.writeAt 0 header 8 (leBytes 4 data.length)
  let header := Lib.writeAt 0 header 16 (leBytes 8 now)
  let header := Lib.writeAt 0 header 24 (leBytes 4 opType.value.toNat)
  let header := Lib.writeAt 0 header 28 (deviceNameBytes deviceName)
  let checksum := crc32 (header.take (walRecordHeaderSize - 4))
  let checksum := if 0 < data.length then checksum ^^^ crc32 data else checksum
  Lib.writeAt 0 header 12 (leBytes 4 checksum.toNat)

theorem length_deviceNameBytes (deviceName : CString) : (deviceNameBytes deviceName).length = 127 := by
  simp only [deviceNameBytes, strncpy, xdeviceMaxDeviceNameLen, Lib.length_padTo, List.length_take]
  omega

@[simp] theorem length_createWalHeader (stack : Nat → Byte) (now fileSize : Nat) :
    (createWalHeader stack now fileSize).length = walHeaderSize := by
  have hmagic : walMagic.length = 8 := by decide
  simp [createWalHeader, hmagic, walHeaderSize]

@[simp] theorem length_walRecordHeader (stack : Nat → Byte) (lsn now : Nat) (deviceName : CString)
    (opType : XdeviceWalOpType) (data : Bytes) :
    (walRecordHeader stack lsn now deviceName opType data).length = walRecordHeaderSize := by
  simp [walRecordHeader, length_deviceNameBytes, walRecordHeaderSize]

end XDevice
