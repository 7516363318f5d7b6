import XDevice.Lib.Bytes
/-!
# Constants, error codes and C strings

`xdevice.h`, and the few facts about C that every module needs. Machine words
are natural numbers; arithmetic that can leave 64 bits goes through `add64`,
`sub64` and `mul64`. A step that C leaves undefined (a `memcpy` outside its
block, a read outside an array) is `none` in the functions that model it.
-/

namespace XDevice

/-! ## `xdevice.h` -/

def xdeviceMaxNodes : Nat := 64
def xdeviceMaxNodeIdLen : Nat := 64
def xdeviceMaxDeviceNameLen : Nat := 128
def maxStorageBackends : Nat := 8
def maxPathLen : Nat := 512

/-- `xdevice_error_t`. The header has no `XDEVICE_ERROR_NO_SPACE`, which
`mock_storage_write_sync` returns; it stands here as one more error code. -/
inductive XdeviceError where
  | ok
  | error
  | invalidParam
  | outOfMemory
  | io
  | network
  | timeout
  | notFound
  | exists
  | permission
  | consistency
  | nodeDown
  | noSpace
  deriving DecidableEq, Repr

/-- `storage_backend_type_t`: a word, of which the header names four values. -/
structure StorageBackendType where
  value : UInt32
  deriving DecidableEq, Repr

namespace StorageBackendType

def nvmeof : StorageBackendType := ⟨1⟩
def nfs : StorageBackendType := ⟨2⟩
def «local» : StorageBackendType := ⟨3⟩
def mock : StorageBackendType := ⟨4⟩

end StorageBackendType

/-! ## 64-bit words -/

/-- `PTRDIFF_MAX`: no allocation succeeds beyond it. -/
def ptrdiffMax : Nat := 2 ^ 63 - 1

def add64 (a b : Nat) : Nat := (a + b) % 2 ^ 64
def sub64 (a b : Nat) : Nat := (a + 2 ^ 64 - b) % 2 ^ 64
def mul64 (a b : Nat) : Nat := (a * b) % 2 ^ 64

theorem add64_eq {a b : Nat} (h : a + b < 2 ^ 64) : add64 a b = a + b := Nat.mod_eq_of_lt h

theorem sub64_eq {a b : Nat} (hb : b ≤ a) (ha : a < 2 ^ 64) : sub64 a b = a - b := by
  unfold sub64; omega

theorem mul64_eq {a b : Nat} (h : a * b < 2 ^ 64) : mul64 a b = a * b := Nat.mod_eq_of_lt h

/-! ## Bytes and C strings -/

abbrev Byte := UInt8
abbrev Bytes := List UInt8

/-- A C string: its bytes before the terminator. -/
abbrev CString := List UInt8

/-- The bytes of an ASCII literal. -/
def cstr (s : String) : CString := s.toList.map fun c => c.toNat.toUInt8

/-- `strncpy(dst, src, n)` into a zeroed buffer of more than `n` bytes. -/
def strncpy (src : CString) (n : Nat) : CString := src.take n

/-- `snprintf` into a buffer of `size` bytes, for the text `s` it prints. -/
def snprintf (size : Nat) (s : CString) : CString := s.take (size - 1)

theorem strncpy_eq {src : CString} {n : Nat} (h : src.length ≤ n) : strncpy src n = src :=
  List.take_of_length_le h

theorem snprintf_eq {size : Nat} {s : CString} (h : s.length < size) : snprintf size s = s :=
  List.take_of_length_le (by omega)

/-! ## Heap blocks

A block is the list of the bytes it was allocated with, so its length is the
number of bytes really allocated. -/

/-- What fresh memory happens to hold. -/
def freshBlock (junk : Nat → Byte) (n : Nat) : Bytes := (List.range n).map junk

/-- `malloc(n)`; `avail` says whether the allocator has memory left. -/
def malloc (avail : Bool) (junk : Nat → Byte) (n : Nat) : Option Bytes :=
  if avail ∧ n ≤ ptrdiffMax then some (freshBlock junk n) else none

/-- `realloc(block, n)` returns a block, where the empty block stands for a null pointer: a
block that is there is not resized to 0 but freed. -/
abbrev Reallocs (avail : Bool) (block : Bytes) (n : Nat) : Prop :=
  avail = true ∧ n ≤ ptrdiffMax ∧ (n = 0 → block = [])

/-- `realloc(block, n)`: the old bytes kept as far as they fit. -/
def realloc (avail : Bool) (junk : Nat → Byte) (block : Bytes) (n : Nat) : Option Bytes :=
  if Reallocs avail block n then some (block.take n ++ (freshBlock junk n).drop block.length) else none

/-- What is left of the block when `realloc(block, n)` returns null: all of it, unless size 0
has freed it. -/
def reallocLeft (block : Bytes) (n : Nat) : Bytes := if n = 0 then [] else block

/-- `memcpy(block + off, src, |src|)`, undefined outside the block. -/
def memcpy (block : Bytes) (off : Nat) (src : Bytes) : Option Bytes :=
  if off + src.length ≤ block.length then some (Lib.writeAt 0 block off src) else none

/-- `memset(block + off, 0, n)`, undefined outside the block. -/
def memset (block : Bytes) (off n : Nat) : Option Bytes := memcpy block off (List.replicate n 0)

/-- The `n` bytes `memcpy` takes from `block + off`, undefined outside the block. -/
def memcpyFrom (block : Bytes) (off n : Nat) : Option Bytes :=
  if off + n ≤ block.length then some ((block.drop off).take n) else none

@[simp] theorem length_freshBlock (junk : Nat → Byte) (n : Nat) : (freshBlock junk n).length = n := by
  simp [freshBlock]

theorem length_realloc {avail : Bool} {junk : Nat → Byte} {block block' : Bytes} {n : Nat}
    (h : realloc avail junk block n = some block') : block'.length = n := by
  unfold realloc at h
  split at h
  · cases h
    simp only [List.length_append, List.length_take, List.length_drop, length_freshBlock]
    omega
  · cases h

theorem getD_realloc {avail : Bool} {junk : Nat → Byte} {block block' : Bytes} {n i : Nat}
    (h : realloc avail junk block n = some block') (hi : i < block.length) (hn : i < n) :
    block'.getD i 0 = block.getD i 0 := by
  unfold realloc at h
  split at h
  · cases h
    rw [List.getD_append _ _ _ _ (by simp; omega), Lib.getD_take, if_pos hn]
  · cases h

end XDevice
