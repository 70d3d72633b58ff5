import Mathlib.Algebra.Ring.Nat
import Mathlib.Data.List.Sort

/-!
# Little-endian byte strings

Fixed-width little-endian encodings of natural numbers, least significant byte first. A value
that does not fit in the width is encoded modulo `256 ^ width`, as the shift-and-mask loops of a
byte writer do.
-/

namespace LittleEndian

/-- The `width` low bytes of a number, least significant first. -/
def leBytes : Nat → Nat → List UInt8
  | 0, _ => []
  | width + 1, value => UInt8.ofNat value :: leBytes width (value / 256)

/-- The number whose bytes, least significant first, are given. -/
def ofLeBytes : List UInt8 → Nat
  | [] => 0
  | byte :: bytes => byte.toNat + 256 * ofLeBytes bytes

@[simp] theorem length_leBytes (width value : Nat) : (leBytes width value).length = width := by
  induction width generalizing value with
  | zero => rfl
  | succ width ih => simp only [leBytes, List.length_cons, ih]

theorem ofLeBytes_leBytes (width value : Nat) :
    ofLeBytes (leBytes width value) = value % 256 ^ width := by
  induction width generalizing value with
  | zero => simp [leBytes, ofLeBytes, Nat.mod_one]
  | succ width ih =>
    have hbyte : (UInt8.ofNat value).toNat = value % 256 := UInt8.toNat_ofNat'
    rw [leBytes, ofLeBytes, ih, hbyte, Nat.pow_succ', Nat.mod_mul]

theorem leBytes_ofLeBytes (bytes : List UInt8) :
    leBytes bytes.length (ofLeBytes bytes) = bytes := by
  induction bytes with
  | nil => rfl
  | cons byte bytes ih =>
    have hlt := byte.toNat_lt
    have hdiv : (byte.toNat + 256 * ofLeBytes bytes) / 256 = ofLeBytes bytes := by omega
    have hmod : (byte.toNat + 256 * ofLeBytes bytes) % 256 = byte.toNat := by omega
    rw [List.length_cons, ofLeBytes, leBytes, hdiv, ih]
    congr 1
    rw [← UInt8.toNat_inj, UInt8.toNat_ofNat']
    exact hmod

theorem ofLeBytes_lt (bytes : List UInt8) : ofLeBytes bytes < 256 ^ bytes.length := by
  have h := ofLeBytes_leBytes bytes.length (ofLeBytes bytes)
  rw [leBytes_ofLeBytes] at h
  rw [h]
  exact Nat.mod_lt _ (Nat.pow_pos (by decide))

end LittleEndian
