import Mathlib.Algebra.Ring.Nat

/-!
# Binary long division

Schoolbook division in base two: the bits of the dividend are brought down from the top, and the
divisor is subtracted whenever it fits. After every bit the quotient and the remainder are those
of the part of the dividend that was brought down.
-/

namespace LongDivision

/-- Quotient and remainder of a dividend without its last `i` bits. -/
structure Divides (n d i q r : Nat) : Prop where
  eq : n / 2 ^ i = q * d + r
  lt : r < d

/-- The remainder with the next bit of the dividend brought down. -/
def bringDown (n i r : Nat) : Nat := 2 * r + n / 2 ^ i % 2

variable {n d i q r : Nat}

theorem Divides.init (h : n / 2 ^ i < d) : Divides n d i 0 (n / 2 ^ i) := ⟨by omega, h⟩

theorem div_two_pow_succ (n i : Nat) : n / 2 ^ i = 2 * (n / 2 ^ (i + 1)) + n / 2 ^ i % 2 := by
  have hdiv : n / 2 ^ (i + 1) = n / 2 ^ i / 2 := by
    rw [Nat.pow_succ, Nat.div_div_eq_div_mul]
  omega

theorem Divides.step (h : Divides n d (i + 1) q r) :
    Divides n d i (2 * q + if d ≤ bringDown n i r then 1 else 0)
      (bringDown n i r - if d ≤ bringDown n i r then d else 0) := by
  have heq := h.eq
  have hlt := h.lt
  have hbit := div_two_pow_succ n i
  have hdouble : 2 * q * d = 2 * (q * d) := Nat.mul_assoc 2 q d
  have hsucc : (2 * q + 1) * d = 2 * (q * d) + d := by rw [Nat.add_mul, Nat.one_mul, hdouble]
  unfold bringDown
  split
  · exact ⟨by rw [hsucc]; omega, by omega⟩
  · exact ⟨by rw [Nat.add_zero, hdouble]; omega, by omega⟩

theorem Divides.result (h : Divides n d 0 q r) : n = q * d + r ∧ r < d := by
  simpa using And.intro h.eq h.lt

end LongDivision
