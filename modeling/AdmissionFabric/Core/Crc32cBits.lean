import AdmissionFabric.Core.Crc32c
import Mathlib.Logic.Function.Iterate
import Mathlib.Tactic.Ring

/-!
# CRC-32C bit by bit

The checksum is the remainder of a division by the Castagnoli polynomial, one bit of the data at a
time, the least significant bit of each byte first. Eight such steps are one step of the table: as
long as no bit is shifted out, adding a word before the steps is the same as adding it, shifted,
after them.

A step is injective, and 32 bits that are brought in one after the other amount to one word that
is brought in at once. So two strings whose differences lie within 32 consecutive bits have
different checksums.

Source: `include/naf/core/crc32c.hpp`.
-/

namespace AdmissionFabric

variable {w : Nat} {bits' : List Bool} {data' : List UInt8} (bits : List Bool) (data : List UInt8)
    (crc : UInt32)

/-- Continue a checksum over more data. -/
def crc32cExtend (seed : UInt32) (data : List UInt8) : UInt32 :=
  data.foldl crc32cStep (seed ^^^ 0xFFFFFFFF) ^^^ 0xFFFFFFFF

/-! ### Bits -/

/-- The bits of a byte, least significant first. -/
def bitsOfByte (byte : UInt8) : List Bool := (List.range 8).map byte.toNat.testBit

/-- The bits of a string, byte by byte. -/
def bitsOf (data : List UInt8) : List Bool := data.flatMap bitsOfByte

/-- The number whose bits, least significant first, are given. -/
def ofBits : List Bool → Nat
  | [] => 0
  | bit :: bits => bit.toNat + 2 * ofBits bits

/-- One bit of the data, added to the bit that leaves the register. -/
def crc32cFeed (crc : UInt32) (bit : Bool) : UInt32 :=
  if (crc.toNat.testBit 0 ^^ bit) then (crc >>> 1) ^^^ 0x82F63B78 else crc >>> 1

/-- The bit-serial division, with the initial value and the final complement. -/
def crc32cSerial (data : List UInt8) : UInt32 :=
  (bitsOf data).foldl crc32cFeed 0xFFFFFFFF ^^^ 0xFFFFFFFF

@[simp] theorem length_bitsOfByte (byte : UInt8) : (bitsOfByte byte).length = 8 := by
  simp [bitsOfByte]

theorem ofBits_bitsOfByte (byte : UInt8) : ofBits (bitsOfByte byte) = byte.toNat := by
  have hall : ∀ i : Fin 256, ofBits ((List.range 8).map (i : Nat).testBit) = i := by
    decide +kernel
  exact hall ⟨byte.toNat, byte.toNat_lt⟩

theorem ofBits_lt : ofBits bits < 2 ^ bits.length := by
  induction bits with
  | nil => simp [ofBits]
  | cons bit bits ih =>
    have hbit := bit.toNat_lt
    rw [ofBits, List.length_cons, Nat.pow_succ]
    omega

theorem ofBits_injective {bits : List Bool} (hlength : bits.length = bits'.length)
    (h : ofBits bits = ofBits bits') : bits = bits' := by
  induction bits generalizing bits' with
  | nil => exact (List.length_eq_zero_iff.mp hlength.symm).symm
  | cons bit bits ih =>
    cases bits' with
    | nil => cases hlength
    | cons bit' bits' =>
      simp only [ofBits] at h
      have hbit := bit.toNat_lt
      have hbit' := bit'.toNat_lt
      have hnat : bit.toNat = bit'.toNat := by omega
      have hfirst : bit = bit' := by
        revert hnat
        cases bit <;> cases bit' <;> simp
      rw [hfirst, ih (Nat.succ.inj hlength) (by omega)]

theorem bitsOf_injective {data : List UInt8} (h : bitsOf data = bitsOf data') : data = data' := by
  induction data generalizing data' with
  | nil =>
    cases data' with
    | nil => rfl
    | cons byte' data' => simp [bitsOf, bitsOfByte] at h
  | cons byte data ih =>
    cases data' with
    | nil => simp [bitsOf, bitsOfByte] at h
    | cons byte' data' =>
      obtain ⟨hbyte, hrest⟩ := List.append_inj h (by simp)
      have hnat := congrArg ofBits hbyte
      rw [ofBits_bitsOfByte, ofBits_bitsOfByte] at hnat
      rw [UInt8.toNat_inj.mp hnat, ih hrest]

/-! ### Steps -/

theorem crc32cBit_xor (x : UInt32) (hw : 2 * w < 2 ^ 32) :
    crc32cBit (x ^^^ UInt32.ofNat (2 * w)) = crc32cBit x ^^^ UInt32.ofNat w := by
  have hlow : (x ^^^ UInt32.ofNat (2 * w)) &&& 1 = x &&& 1 := by
    apply UInt32.toNat_inj.mp
    rw [UInt32.toNat_and, UInt32.toNat_xor, UInt32.toNat_ofNat', Nat.mod_eq_of_lt hw,
      Nat.and_xor_distrib_right, UInt32.toNat_and]
    have hzero : 2 * w &&& (1 : UInt32).toNat = 0 := by
      change 2 * w &&& 1 = 0
      rw [Nat.and_one_is_mod]
      omega
    rw [hzero, Nat.xor_zero]
  have hshift : UInt32.ofNat (2 * w) >>> 1 = UInt32.ofNat w := by
    apply UInt32.toNat_inj.mp
    rw [UInt32.toNat_shiftRight, UInt32.toNat_ofNat', UInt32.toNat_ofNat', Nat.mod_eq_of_lt hw,
      Nat.shiftRight_eq_div_pow]
    change 2 * w / 2 ^ 1 = w % 2 ^ 32
    omega
  unfold crc32cBit
  rw [hlow, UInt32.shiftRight_xor, hshift]
  split
  · rw [UInt32.xor_assoc, UInt32.xor_assoc, UInt32.xor_comm (UInt32.ofNat w)]
  · rfl

theorem iterate_crc32cBit_xor (n : Nat) (x : UInt32) (hw : w * 2 ^ n < 2 ^ 32) :
    crc32cBit^[n] (x ^^^ UInt32.ofNat (w * 2 ^ n)) = crc32cBit^[n] x ^^^ UInt32.ofNat w := by
  induction n generalizing w with
  | zero => simp
  | succ n ih =>
    have hdouble : w * 2 ^ (n + 1) = 2 * w * 2 ^ n := by
      ring
    rw [hdouble] at hw ⊢
    have hsmall : 2 * w < 2 ^ 32 :=
      Nat.lt_of_le_of_lt (Nat.le_mul_of_pos_right _ (Nat.two_pow_pos n)) hw
    rw [Function.iterate_succ_apply', Function.iterate_succ_apply', ih hw, crc32cBit_xor _ hsmall]

theorem crc32cStep_eq_iterate (byte : UInt8) :
    crc32cStep crc byte = crc32cBit^[8] (crc ^^^ byte.toUInt32) := by
  have hcrc := crc.toNat_lt
  have hbyte := byte.toNat_lt
  have hhigh : crc >>> 8 = UInt32.ofNat (crc.toNat / 2 ^ 8) := by
    apply UInt32.toNat_inj.mp
    rw [UInt32.toNat_shiftRight, UInt32.toNat_ofNat', Nat.shiftRight_eq_div_pow]
    change crc.toNat / 2 ^ 8 = _
    omega
  -- the word is its low byte and the rest, which eight steps only shift
  have hsplit : crc ^^^ byte.toUInt32 =
      ((crc ^^^ byte.toUInt32) &&& 0xFF) ^^^ UInt32.ofNat (crc.toNat / 2 ^ 8 * 2 ^ 8) := by
    apply UInt32.toNat_inj.mp
    rw [UInt32.toNat_xor, UInt32.toNat_xor, UInt32.toNat_and, UInt32.toNat_xor,
      UInt8.toNat_toUInt32, UInt32.toNat_ofNat', Nat.mod_eq_of_lt (by omega)]
    change _ = ((_ ^^^ _) &&& (2 ^ 8 - 1)) ^^^ _
    refine Nat.eq_of_testBit_eq fun i => ?_
    simp only [Nat.testBit_xor, Nat.testBit_and, Nat.testBit_two_pow_sub_one,
      Nat.testBit_mul_two_pow, Nat.testBit_div_two_pow]
    by_cases hi : i < 8
    · simp [hi, show ¬ 8 ≤ i by omega]
    · have hclear : byte.toNat.testBit i = false :=
        Nat.testBit_lt_two_pow
          (Nat.lt_of_lt_of_le hbyte (Nat.pow_le_pow_right (by decide) (by omega)))
      simp [hi, hclear, show 8 ≤ i by omega]
  have hiterate := iterate_crc32cBit_xor 8 ((crc ^^^ byte.toUInt32) &&& 0xFF)
    (w := crc.toNat / 2 ^ 8) (by omega)
  rw [hsplit, hiterate, ← hhigh]
  rfl

theorem crc32cBit_injective : Function.Injective crc32cBit := by
  intro x y h
  have hbyte : ∀ crc : UInt32, crc32cStep crc 0 = crc32cBit^[7] (crc32cBit crc) := by
    intro crc
    rw [crc32cStep_eq_iterate]
    change crc32cBit^[8] (crc ^^^ 0) = _
    rw [UInt32.xor_zero]
    rfl
  apply crc32cStep_crc_injective 0
  simp only [hbyte, h]

theorem crc32cFeed_eq (bit : Bool) :
    crc32cFeed crc bit = crc32cBit (crc ^^^ UInt32.ofNat bit.toNat) := by
  have hshift : ∀ bit : Bool, UInt32.ofNat bit.toNat >>> 1 = 0 := by decide
  have hlow : (crc ^^^ UInt32.ofNat bit.toNat) &&& 1 = 1 ↔
      (crc.toNat.testBit 0 ^^ bit) = true := by
    rw [← UInt32.toNat_inj, UInt32.toNat_and, UInt32.toNat_xor]
    change (crc.toNat ^^^ (UInt32.ofNat bit.toNat).toNat) &&& 1 = 1 ↔ _
    have hbit : (UInt32.ofNat bit.toNat).toNat.testBit 0 = bit := by cases bit <;> rfl
    have hodd : ∀ n : Nat, n % 2 = 1 ↔ n.testBit 0 = true := fun n => by
      rw [Nat.testBit_zero, decide_eq_true_eq]
    rw [Nat.and_one_is_mod, hodd, Nat.testBit_xor, hbit]
  simp only [crc32cFeed, crc32cBit, hlow, UInt32.shiftRight_xor, hshift, UInt32.xor_zero]

/-- Up to 32 bits that are brought in one by one amount to one word. -/
theorem foldl_crc32cFeed (hlength : bits.length ≤ 32) (crc : UInt32) :
    bits.foldl crc32cFeed crc = crc32cBit^[bits.length] (crc ^^^ UInt32.ofNat (ofBits bits)) := by
  induction bits generalizing crc with
  | nil => simp [ofBits]
  | cons bit bits ih =>
    have hlt := ofBits_lt (bit :: bits)
    have hpow : 2 ^ (bit :: bits).length ≤ 2 ^ 32 := Nat.pow_le_pow_right (by decide) hlength
    rw [ofBits] at hlt ⊢
    have hword : UInt32.ofNat bit.toNat ^^^ UInt32.ofNat (2 * ofBits bits) =
        UInt32.ofNat (bit.toNat + 2 * ofBits bits) := by
      apply UInt32.toNat_inj.mp
      rw [UInt32.toNat_xor, UInt32.toNat_ofNat', UInt32.toNat_ofNat', UInt32.toNat_ofNat',
        Nat.mod_eq_of_lt (by omega), Nat.mod_eq_of_lt (by omega), Nat.mod_eq_of_lt (by omega)]
      cases bit with
      | false => simp
      | true =>
        change 1 ^^^ 2 * ofBits bits = 1 + 2 * ofBits bits
        refine Nat.eq_of_testBit_eq fun i => ?_
        cases i with
        | zero => simp [Nat.testBit_zero]
        | succ i =>
          rw [Nat.testBit_xor, Nat.testBit_succ, Nat.testBit_succ, Nat.testBit_succ,
            show (1 + 2 * ofBits bits) / 2 = ofBits bits by omega,
            show 2 * ofBits bits / 2 = ofBits bits by omega]
          simp
    rw [List.foldl_cons, ih (Nat.le_of_succ_le hlength), crc32cFeed_eq,
      ← crc32cBit_xor _ (by omega), UInt32.xor_assoc, hword, List.length_cons,
      Function.iterate_succ_apply]

theorem foldl_crc32cFeed_injective : Function.Injective fun crc => bits.foldl crc32cFeed crc := by
  induction bits with
  | nil => exact fun _ _ h => h
  | cons bit bits ih =>
    intro crc crc' h
    have hstep : crc32cFeed crc bit = crc32cFeed crc' bit := ih h
    rw [crc32cFeed_eq, crc32cFeed_eq] at hstep
    exact (UInt32.xor_left_inj _).mp (crc32cBit_injective hstep)

theorem foldl_crc32cStep : data.foldl crc32cStep crc = (bitsOf data).foldl crc32cFeed crc := by
  induction data generalizing crc with
  | nil => rfl
  | cons byte data ih =>
    have hbyte : crc32cStep crc byte = (bitsOfByte byte).foldl crc32cFeed crc := by
      have hword : byte.toUInt32 = UInt32.ofNat byte.toNat := by
        apply UInt32.toNat_inj.mp
        have hlt := byte.toNat_lt
        rw [UInt8.toNat_toUInt32, UInt32.toNat_ofNat', Nat.mod_eq_of_lt (by omega)]
      rw [crc32cStep_eq_iterate, foldl_crc32cFeed _ (by simp), length_bitsOfByte,
        ofBits_bitsOfByte, hword]
    rw [List.foldl_cons, ih, hbyte, bitsOf, bitsOf, List.flatMap_cons, List.foldl_append]

theorem crc32c_eq_serial : crc32c data = crc32cSerial data := by
  rw [crc32c, crc32cSerial, foldl_crc32cStep]

theorem crc32cExtend_crc32c (more : List UInt8) :
    crc32cExtend (crc32c data) more = crc32c (data ++ more) := by
  rw [crc32cExtend, crc32c, crc32c, UInt32.xor_assoc, UInt32.xor_self, UInt32.xor_zero,
    List.foldl_append]

/-! ### Bursts -/

/-- The bits at which two strings differ lie within 32 positions from `p` on. -/
def DifferWithin (data data' : List UInt8) (p : Nat) : Prop :=
  ∀ i, (bitsOf data)[i]? ≠ (bitsOf data')[i]? → p ≤ i ∧ i < p + 32

theorem window_injective {bits : List Bool} (hlength : bits.length = bits'.length)
    (hwindow : bits.length ≤ 32) {crc : UInt32}
    (h : bits.foldl crc32cFeed crc = bits'.foldl crc32cFeed crc) : bits = bits' := by
  rw [foldl_crc32cFeed bits hwindow, foldl_crc32cFeed bits' (hlength ▸ hwindow), ← hlength] at h
  have hword := (UInt32.xor_right_inj _).mp (crc32cBit_injective.iterate bits.length h)
  have hpow : 2 ^ bits.length ≤ 2 ^ 32 := Nat.pow_le_pow_right (by decide) hwindow
  have hlt := ofBits_lt bits
  have hlt' := ofBits_lt bits'
  rw [← hlength] at hlt'
  have hnat := congrArg UInt32.toNat hword
  rw [UInt32.toNat_ofNat', UInt32.toNat_ofNat', Nat.mod_eq_of_lt (by omega),
    Nat.mod_eq_of_lt (by omega)] at hnat
  exact ofBits_injective hlength hnat

theorem eq_of_differWithin {data : List UInt8} {p : Nat} (hlength : data.length = data'.length)
    (hwithin : DifferWithin data data' p) (h : crc32c data = crc32c data') : data = data' := by
  rw [crc32c, crc32c, UInt32.xor_left_inj, foldl_crc32cStep, foldl_crc32cStep] at h
  apply bitsOf_injective
  have hbits : (bitsOf data).length = (bitsOf data').length := by
    simp [bitsOf, List.length_flatMap, hlength]
  have hsame : ∀ i, ¬ (p ≤ i ∧ i < p + 32) → (bitsOf data)[i]? = (bitsOf data')[i]? :=
    fun i hi => by_contra fun hne => hi (hwithin i hne)
  generalize bitsOf data = bits, bitsOf data' = bits' at *
  have hbefore : bits.take p = bits'.take p := by
    refine List.ext_getElem? fun i => ?_
    rw [List.getElem?_take, List.getElem?_take]
    split
    · exact hsame i (by omega)
    · rfl
  have hafter : (bits.drop p).drop 32 = (bits'.drop p).drop 32 := by
    refine List.ext_getElem? fun i => ?_
    rw [List.drop_drop, List.getElem?_drop, List.drop_drop, List.getElem?_drop]
    exact hsame _ (by omega)
  have hsplit : ∀ bits : List Bool,
      bits = bits.take p ++ ((bits.drop p).take 32 ++ (bits.drop p).drop 32) := by
    intro bits
    rw [List.take_append_drop, List.take_append_drop]
  rw [hsplit bits, hsplit bits', hbefore, hafter, List.foldl_append, List.foldl_append,
    List.foldl_append, List.foldl_append] at h
  have hwindow : (bits.drop p).take 32 = (bits'.drop p).take 32 :=
    window_injective (by simp [hbits]) (by simp) (foldl_crc32cFeed_injective _ h)
  rw [hsplit bits, hsplit bits', hbefore, hwindow, hafter]

/-- The checksum is the bit-serial division, it can be continued, and it detects every burst of at
most 32 bits. -/
theorem crc32c_guarantees :
    (∀ data, crc32c data = crc32cSerial data) ∧
    (∀ data more, crc32cExtend (crc32c data) more = crc32c (data ++ more)) ∧
    ∀ (data data' : List UInt8) (p : Nat), data.length = data'.length → data ≠ data' →
      DifferWithin data data' p → crc32c data ≠ crc32c data' :=
  ⟨crc32c_eq_serial, crc32cExtend_crc32c, fun _ _ _ hlength hne hwithin h =>
    hne (eq_of_differWithin hlength hwithin h)⟩

end AdmissionFabric
