import XDevice.Wal.Format
import XDevice.Lib.Xor
/-!
# The checksum as a linear map

A byte of data moves the register of `crc32` on by eight of the steps that make the
table, and every step respects exclusive or. What four more bytes do is therefore
known from the 32 words with one bit: among all four-byte words exactly one is its own
checksum behind a given prefix.
-/
open Lib

namespace XDevice

/-- The register starts at, and is complemented with, all ones. -/
def crcOnes : BitVec 32 := 0xFFFFFFFF#32

/-- The register after some data. -/
def crcRegister (crc : BitVec 32) (data : Bytes) : BitVec 32 := data.foldl crc32Update crc

theorem crc32_eq (data : Bytes) : crc32 data = crcRegister crcOnes data ^^^ crcOnes := rfl

theorem crcRegister_append (crc : BitVec 32) (a b : Bytes) :
    crcRegister crc (a ++ b) = crcRegister (crcRegister crc a) b := List.foldl_append

/-! ## A bit at a time -/

/-- One shift of the reflected polynomial: the bit shifted out decides whether it is added. -/
def crcShift (crc : BitVec 32) : BitVec 32 :=
  if crc.getLsbD 0 then (crc >>> 1) ^^^ 0xEDB88320#32 else crc >>> 1

/-- A byte is added to the low eight bits of the register and shifted through. -/
def crcShiftByte (crc : BitVec 32) (byte : Byte) : BitVec 32 := crcShift^[8] (crc ^^^ byte.toBitVec.setWidth 32)

/-- The register of the reference after some data. -/
def crcShiftBytes (crc : BitVec 32) (data : Bytes) : BitVec 32 := data.foldl crcShiftByte crc

/-- Reflected CRC-32, a bit at a time. -/
def crcReference (data : Bytes) : BitVec 32 := ~~~ crcShiftBytes 0xFFFFFFFF#32 data

theorem crcTableStep_eq : crcTableStep = crcShift := by
  funext crc
  have hbit : (crc &&& 1#32 ≠ 0#32) ↔ crc.getLsbD 0 = true := by
    rw [BitVec.and_one_eq_setWidth_ofBool_getLsbD]
    cases crc.getLsbD 0 <;> decide
  simp only [crcTableStep, crcShift, hbit]

/-! ## Steps -/

theorem xorLinear_step : XorLinear crcTableStep := by
  intro a b
  simp only [crcTableStep_eq, crcShift, BitVec.getLsbD_xor, BitVec.ushiftRight_xor_distrib]
  cases ha : a.getLsbD 0 <;> cases hb : b.getLsbD 0 <;> simp
  · ac_rfl
  · ac_rfl
  · rw [XorLinear.xor_xor_cancel]

theorem xorLinear_steps (n : Nat) : XorLinear crcTableStep^[n] := xorLinear_step.iterate n

theorem crcTable_getD {i : Nat} (hi : i < 256) :
    crcTable.getD i 0#32 = crcTableStep^[8] (BitVec.ofNat 32 i) := by
  simp only [crcTable, List.getD_eq_getElem?_getD, List.getElem?_map, List.getElem?_range hi, Option.map_some,
    Option.getD_some]
  rfl

theorem xorLinear_and (mask : BitVec 32) : XorLinear fun x : BitVec 32 => x &&& mask := by
  intro a b
  apply BitVec.eq_of_getLsbD_eq
  intro i _
  simp only [BitVec.getLsbD_and, BitVec.getLsbD_xor, Bool.and_xor_distrib_right]

theorem xorLinear_shift (n : Nat) : XorLinear fun x : BitVec 32 => x >>> n := by
  intro a b
  exact BitVec.ushiftRight_xor_distrib ..

/-- The low byte goes through the table, the others move down. -/
theorem steps_eight (x : BitVec 32) : crcTableStep^[8] x = crcTableStep^[8] (x &&& 0xFF#32) ^^^ (x >>> 8) := by
  refine XorLinear.ext (xorLinear_steps 8)
    (((xorLinear_steps 8).comp (xorLinear_and 0xFF#32)).xor (xorLinear_shift 8)) ?_ x
  decide

/-- A byte of data is eight steps. -/
theorem crc32Update_eq (crc : BitVec 32) (byte : Byte) :
    crc32Update crc byte = crcTableStep^[8] (crc ^^^ BitVec.ofNat 32 byte.toNat) := by
  have hlow : ((crc ^^^ BitVec.ofNat 32 byte.toNat) &&& 0xFF#32).toNat < 256 := by
    rw [BitVec.toNat_and]
    exact Nat.lt_succ_of_le Nat.and_le_right
  have hbyte : BitVec.ofNat 32 byte.toNat >>> 8 = 0#32 := by
    apply BitVec.eq_of_toNat_eq
    have := byte.toNat_lt
    rw [BitVec.toNat_ushiftRight, BitVec.toNat_ofNat, Nat.shiftRight_eq_div_pow]
    simp
    omega
  have hshift : (crc ^^^ BitVec.ofNat 32 byte.toNat) >>> 8 = crc >>> 8 := by
    rw [BitVec.ushiftRight_xor_distrib, hbyte, BitVec.xor_zero]
  rw [crc32Update, crcTable_getD hlow, BitVec.ofNat_toNat, BitVec.setWidth_eq,
    steps_eight (crc ^^^ BitVec.ofNat 32 byte.toNat), hshift]

/-! ## The reference -/

/-- A look into the table is eight shifts, for every register. -/
theorem crc32Update_crcShiftByte : crc32Update = crcShiftByte := by
  funext crc byte
  have hbyte : BitVec.ofNat 32 byte.toNat = byte.toBitVec.setWidth 32 := by
    apply BitVec.eq_of_toNat_eq
    rw [BitVec.toNat_ofNat, BitVec.toNat_setWidth, UInt8.toNat_toBitVec]
  rw [crc32Update_eq, crcTableStep_eq, hbyte, crcShiftByte]

theorem crcRegister_crcShiftBytes (crc : BitVec 32) (data : Bytes) : crcRegister crc data = crcShiftBytes crc data := by
  rw [crcRegister, crcShiftBytes, crc32Update_crcShiftByte]

/-- The table computes the reference, and its register carries on from any data to what follows. -/
theorem crc32_crcReference :
    (∀ data, crc32 data = crcReference data) ∧
    (∀ data, crc32 data = crcRegister crcOnes data ^^^ crcOnes) ∧
    (∀ crc data, crcRegister crc data = crcShiftBytes crc data) ∧
    ∀ crc front rest, crcRegister crc (front ++ rest) = crcRegister (crcRegister crc front) rest := by
  refine ⟨?_, crc32_eq, crcRegister_crcShiftBytes, crcRegister_append⟩
  intro data
  have hnot : ∀ crc : BitVec 32, crc ^^^ crcOnes = ~~~ crc := by
    intro crc
    exact BitVec.xor_allOnes
  rw [crc32_eq, crcRegister_crcShiftBytes, hnot, crcReference, crcOnes]

/-- The reference on the digits from one to nine. -/
example : crcReference [0x31, 0x32, 0x33, 0x34, 0x35, 0x36, 0x37, 0x38, 0x39] = 0xCBF43926#32 := by decide +kernel

/-! ## Steps back -/

/-- The step taken back. -/
def crcTableUnstep (crc : BitVec 32) : BitVec 32 :=
  if crc.getLsbD 31 then ((crc ^^^ 0xEDB88320#32) <<< 1) ^^^ 1#32 else crc <<< 1

theorem xorLinear_unstep : XorLinear crcTableUnstep := by
  intro a b
  simp only [crcTableUnstep, BitVec.getLsbD_xor, BitVec.shiftLeft_xor_distrib]
  cases ha : a.getLsbD 31 <;> cases hb : b.getLsbD 31 <;> simp
  · ac_rfl
  · ac_rfl
  · rw [XorLinear.xor_xor_cancel, XorLinear.xor_xor_cancel]

theorem unstep_step (x : BitVec 32) : crcTableUnstep (crcTableStep x) = x := by
  refine XorLinear.ext (xorLinear_unstep.comp xorLinear_step) XorLinear.id ?_ x
  decide

theorem steps_injective (n : Nat) : Function.Injective crcTableStep^[n] :=
  (Function.LeftInverse.injective unstep_step).iterate n

/-! ## Four more bytes -/

/-- The bytes of a word. -/
theorem leBytes_four (x : BitVec 32) :
    (leBytes 4 x.toNat).map (fun b => BitVec.ofNat 32 b.toNat) =
      [x &&& 0xFF#32, (x >>> 8) &&& 0xFF#32, (x >>> 16) &&& 0xFF#32, (x >>> 24) &&& 0xFF#32] := by
  have hbyte : ∀ k, BitVec.ofNat 32 (x.toNat / 2 ^ k).toUInt8.toNat = (x >>> k) &&& 0xFF#32 := by
    intro k
    apply BitVec.eq_of_toNat_eq
    rw [BitVec.toNat_and, BitVec.toNat_ushiftRight, Nat.shiftRight_eq_div_pow, BitVec.toNat_ofNat, BitVec.toNat_ofNat]
    have h := Nat.and_two_pow_sub_one_eq_mod (x.toNat / 2 ^ k) 8
    simp only [Nat.toUInt8_eq, UInt8.toNat_ofNat']
    simp at h ⊢
    omega
  simp only [leBytes, List.range, List.range.loop, List.map_cons, List.map_nil]
  rw [show (256 : Nat) = 2 ^ 8 by rfl]
  simp only [← Nat.pow_mul]
  rw [hbyte, hbyte, hbyte, hbyte]
  simp

theorem crcRegister_eq (crc : BitVec 32) (data : Bytes) :
    crcRegister crc data =
      (data.map fun b => BitVec.ofNat 32 b.toNat).foldl (fun c b => crcTableStep^[8] (c ^^^ b)) crc := by
  rw [crcRegister, List.foldl_map]
  congr 1
  funext c b
  exact crc32Update_eq c b

/-- A four-byte word goes into the register as one, and 32 steps follow. -/
theorem crcRegister_word (crc x : BitVec 32) :
    crcRegister crc (leBytes 4 x.toNat) = crcTableStep^[32] (crc ^^^ x) := by
  -- the steps are taken apart over the bytes, and the bytes together make the word
  have hbytes : crcTableStep^[8] (crcTableStep^[8] (crcTableStep^[8] (crcTableStep^[8] (x &&& 0xFF#32) ^^^
      ((x >>> 8) &&& 0xFF#32)) ^^^ ((x >>> 16) &&& 0xFF#32)) ^^^ ((x >>> 24) &&& 0xFF#32)) = crcTableStep^[32] x := by
    have hpart : ∀ k, XorLinear fun x : BitVec 32 => (x >>> k) &&& 0xFF#32 := fun k =>
      (xorLinear_and 0xFF#32).comp (xorLinear_shift k)
    have hstep : ∀ {f : BitVec 32 → BitVec 32} (k : Nat), XorLinear f →
        XorLinear fun x => crcTableStep^[8] (f x ^^^ ((x >>> k) &&& 0xFF#32)) := fun k hf =>
      (xorLinear_steps 8).comp (hf.xor (hpart k))
    refine XorLinear.ext (hstep 24 (hstep 16 (hstep 8 ((xorLinear_steps 8).comp (xorLinear_and 0xFF#32)))))
      (xorLinear_steps 32) ?_ x
    decide +kernel
  rw [crcRegister_eq, leBytes_four]
  simp only [List.foldl_cons, List.foldl_nil]
  rw [xorLinear_steps 8 crc, BitVec.xor_assoc, xorLinear_steps 8 (crcTableStep^[8] crc), BitVec.xor_assoc,
    xorLinear_steps 8 (crcTableStep^[8] (crcTableStep^[8] crc)), BitVec.xor_assoc,
    xorLinear_steps 8 (crcTableStep^[8] (crcTableStep^[8] (crcTableStep^[8] crc))), hbytes, xorLinear_steps 32]
  rfl

/-- The only word that is its own checksum behind data with the checksum `crc`: the
columns are those of the inverse of 32 steps and the word itself. -/
def selfChecking (crc : BitVec 32) : BitVec 32 :=
  crc ^^^ crcOnes ^^^ combine ((List.range 32).map fun i => crcTableUnstep^[i] 0x73471EE8#32) crc

theorem combine_selfChecking (x : BitVec 32) :
    combine ((List.range 32).map fun i => crcTableUnstep^[i] 0x73471EE8#32) (crcTableStep^[32] x ^^^ x) = x := by
  refine XorLinear.ext ((XorLinear.combine _).comp ((xorLinear_steps 32).xor XorLinear.id)) XorLinear.id ?_ x
  decide +kernel

theorem selfChecking_combine (x : BitVec 32) :
    crcTableStep^[32] (combine ((List.range 32).map fun i => crcTableUnstep^[i] 0x73471EE8#32) x) ^^^
      combine ((List.range 32).map fun i => crcTableUnstep^[i] 0x73471EE8#32) x = x := by
  refine XorLinear.ext (((xorLinear_steps 32).comp (XorLinear.combine _)).xor (XorLinear.combine _)) XorLinear.id ?_ x
  decide +kernel

theorem crc32_word (data : Bytes) (x : BitVec 32) :
    crc32 (data ++ leBytes 4 x.toNat) = crcTableStep^[32] (crc32 data ^^^ crcOnes ^^^ x) ^^^ crcOnes := by
  rw [crc32_eq, crcRegister_append, crcRegister_word, crc32_eq, BitVec.xor_assoc (crcRegister crcOnes data),
    BitVec.xor_self, BitVec.xor_zero]

/-- Behind the same data, different words have different checksums. -/
theorem crc32_word_inj {data : Bytes} {x y : BitVec 32}
    (h : crc32 (data ++ leBytes 4 x.toNat) = crc32 (data ++ leBytes 4 y.toNat)) : x = y := by
  rw [crc32_word, crc32_word, BitVec.xor_left_inj] at h
  exact (BitVec.xor_right_inj _).1 (steps_injective 32 h)

/-- Four bytes are those of a word. -/
theorem leBytes_word {b : Bytes} (h : b.length = 4) : leBytes 4 (BitVec.ofNat 32 (ofLeBytes b)).toNat = b := by
  have hlt := ofLeBytes_lt b
  rw [h] at hlt
  rw [BitVec.toNat_ofNat, Nat.mod_eq_of_lt (by omega), ← h, leBytes_ofLeBytes]

/-- Behind any data there is exactly one word that is its own checksum. -/
theorem crc32_self_iff (data : Bytes) (x : BitVec 32) :
    crc32 (data ++ leBytes 4 x.toNat) = x ↔ x = selfChecking (crc32 data) := by
  rw [crc32_word, selfChecking]
  generalize crc32 data = crc
  constructor
  · intro h
    -- what goes through the steps, with what comes out, is the checksum of the data
    have hsum : crcTableStep^[32] (crc ^^^ crcOnes ^^^ x) ^^^ (crc ^^^ crcOnes ^^^ x) = crc := by
      calc crcTableStep^[32] (crc ^^^ crcOnes ^^^ x) ^^^ (crc ^^^ crcOnes ^^^ x)
        _ = crcTableStep^[32] (crc ^^^ crcOnes ^^^ x) ^^^ crcOnes ^^^ x ^^^ crc := by ac_rfl
        _ = crc := by rw [h, BitVec.xor_self, BitVec.zero_xor]
    have hinv := combine_selfChecking (crc ^^^ crcOnes ^^^ x)
    rw [hsum] at hinv
    rw [hinv, ← BitVec.xor_assoc, BitVec.xor_self, BitVec.zero_xor]
  · rintro rfl
    have hinv := selfChecking_combine crc
    generalize combine ((List.range 32).map fun i => crcTableUnstep^[i] 0x73471EE8#32) crc = y at hinv ⊢
    rw [← BitVec.xor_assoc (crc ^^^ crcOnes), BitVec.xor_self, BitVec.zero_xor]
    calc crcTableStep^[32] y ^^^ crcOnes
      _ = crcTableStep^[32] y ^^^ y ^^^ (crcOnes ^^^ y) := by rw [XorLinear.xor_xor_cancel]
      _ = crc ^^^ crcOnes ^^^ y := by rw [hinv, BitVec.xor_assoc]

end XDevice
