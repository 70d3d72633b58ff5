import Mathlib.Data.List.Basic

/-!
# CRC-32C

The checksum of journal frames and of wire frames, byte by byte from a table of 256 words. The
table is the reflected Castagnoli polynomial's, built bit by bit.

The high byte of a table entry determines its index, so a step of the checksum is injective in the
checksum and in the byte: data that differ in one byte have different checksums.

Source: `include/naf/core/crc32c.hpp`.
-/

namespace AdmissionFabric

variable (crc : UInt32) (byte : UInt8)

/-- One bit of the division by the reflected polynomial. -/
def crc32cBit (crc : UInt32) : UInt32 :=
  if crc &&& 1 = 1 then (crc >>> 1) ^^^ 0x82F63B78 else crc >>> 1

/-- The entry of the table for an index below `256`. -/
def crc32cEntry (index : UInt32) : UInt32 := Nat.repeat crc32cBit 8 index

/-- One bit of the checksum. -/
def crc32cStep (crc : UInt32) (byte : UInt8) : UInt32 :=
  crc32cEntry ((crc ^^^ byte.toUInt32) &&& 0xFF) ^^^ (crc >>> 8)

/-- The Castagnoli checksum of bytes. -/
def crc32c (data : List UInt8) : UInt32 := data.foldl crc32cStep 0xFFFFFFFF ^^^ 0xFFFFFFFF

/-- The check value of the algorithm. -/
example : crc32c [0x31, 0x32, 0x33, 0x34, 0x35, 0x36, 0x37, 0x38, 0x39] = 0xE3069283 := by
  decide +kernel

/-! ### A single changed byte -/

/-- Undo one bit of the division. -/
def crc32cUnbit (crc : UInt32) : UInt32 :=
  if crc &&& 0x80000000 = 0 then crc <<< 1 else ((crc ^^^ 0x82F63B78) <<< 1) ||| 1

/-- The index of the table entry with a given high byte. -/
def crc32cIndex (high : UInt32) : UInt32 :=
  Nat.repeat crc32cUnbit 8 (high <<< 24) &&& 0xFF

theorem crc32cIndex_entry :
    ∀ i : Fin 256, crc32cIndex (crc32cEntry (UInt32.ofNat i) >>> 24) = UInt32.ofNat i := by
  decide +kernel

theorem and_lowByte (w : UInt32) : w &&& 0xFF = w.toUInt8.toUInt32 := by
  apply UInt32.toNat_inj.mp
  exact Nat.and_two_pow_sub_one_eq_mod w.toNat 8

theorem crc32cStep_eq :
    crc32cStep crc byte = crc32cEntry (crc.toUInt8 ^^^ byte).toUInt32 ^^^ (crc >>> 8) := by
  rw [crc32cStep, and_lowByte, UInt32.toUInt8_xor, UInt8.toUInt8_toUInt32]

theorem crc32cIndex_step :
    crc32cIndex (crc32cStep crc byte >>> 24) = (crc.toUInt8 ^^^ byte).toUInt32 := by
  have hshift : crc >>> 8 >>> 24 = 0 := by
    apply UInt32.toNat_inj.mp
    have hlt := crc.toNat_lt
    simp only [UInt32.toNat_shiftRight, Nat.shiftRight_eq_div_pow]
    change crc.toNat / 2 ^ 8 / 2 ^ 24 = 0
    omega
  rw [crc32cStep_eq, UInt32.shiftRight_xor, hshift, UInt32.xor_zero]
  have hindex := crc32cIndex_entry ⟨(crc.toUInt8 ^^^ byte).toNat, UInt8.toNat_lt _⟩
  have hword : UInt32.ofNat (crc.toUInt8 ^^^ byte).toNat = (crc.toUInt8 ^^^ byte).toUInt32 := by
    apply UInt32.toNat_inj.mp
    have hlt := (crc.toUInt8 ^^^ byte).toNat_lt
    rw [UInt8.toNat_toUInt32, UInt32.toNat_ofNat', Nat.mod_eq_of_lt (by omega)]
  simpa only [hword] using hindex

theorem crc32cStep_byte_injective : Function.Injective (crc32cStep crc) := by
  intro byte byte' h
  have hindex := congrArg (fun word : UInt32 => (crc32cIndex (word >>> 24)).toUInt8) h
  simpa only [crc32cIndex_step, UInt8.toUInt8_toUInt32, UInt8.xor_right_inj] using hindex

theorem crc32cStep_crc_injective : Function.Injective fun crc => crc32cStep crc byte := by
  intro crc crc' h
  have hindex := congrArg (fun word : UInt32 => (crc32cIndex (word >>> 24)).toUInt8) h
  simp only [crc32cIndex_step, UInt8.toUInt8_toUInt32, UInt8.xor_left_inj] at hindex
  simp only [crc32cStep_eq, hindex, UInt32.xor_right_inj] at h
  -- the low byte and the other three are the same
  have hlow := congrArg UInt8.toNat hindex
  have hhigh := congrArg UInt32.toNat h
  simp only [UInt32.toNat_toUInt8] at hlow
  simp only [UInt32.toNat_shiftRight, Nat.shiftRight_eq_div_pow] at hhigh
  change crc.toNat / 2 ^ 8 = crc'.toNat / 2 ^ 8 at hhigh
  apply UInt32.toNat_inj.mp
  omega

theorem crc32c_ne_of_byte (before after : List UInt8) {byte byte' : UInt8} (h : byte ≠ byte') :
    crc32c (before ++ byte :: after) ≠ crc32c (before ++ byte' :: after) := by
  have hfold : ∀ (data : List UInt8) {crc crc' : UInt32}, crc ≠ crc' →
      data.foldl crc32cStep crc ≠ data.foldl crc32cStep crc' := by
    intro data
    induction data with
    | nil => exact fun hne => hne
    | cons b data ih => exact fun hne => ih fun heq => hne (crc32cStep_crc_injective b heq)
  intro heq
  simp only [crc32c, UInt32.xor_left_inj, List.foldl_append, List.foldl_cons] at heq
  exact hfold after (fun hstep => h (crc32cStep_byte_injective _ hstep)) heq

end AdmissionFabric
