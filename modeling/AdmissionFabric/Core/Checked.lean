import AdmissionFabric.Core.Identity

/-!
# Checked and saturating 64-bit arithmetic

All capacity accounting of the runtime flows through these helpers. Rates, latencies and
durations are 64-bit quantities; `addU64` reports an overflow, `satAdd` and `satSub` saturate,
and `SumLatch` is a running sum that latches its overflow. The lemmas read each operation in the
natural numbers, so that later proofs never unfold it.

Source: `include/naf/core/checked.hpp`, `include/naf/model/quantity.hpp`.
-/

namespace AdmissionFabric

variable (a b : UInt64)

/-- Line rate in bits per second. -/
abbrev Rate := UInt64

/-- Latency budget in microseconds. -/
abbrev Latency := UInt64

/-- Logical duration in nanoseconds. -/
abbrev Duration := UInt64

theorem toNat_maxU64 : maxU64.toNat = 2 ^ 64 - 1 := rfl

theorem toNat_le_maxU64 : a.toNat ≤ 2 ^ 64 - 1 := by
  have := a.toNat_lt
  omega

/-! ### Sums and differences -/

/-- The sum, or nothing when it does not fit in 64 bits. -/
def addU64 (a b : UInt64) : Option UInt64 :=
  if a > maxU64 - b then none else some (a + b)

/-- The sum, saturating at the maximum. -/
def satAdd (a b : UInt64) : UInt64 := (addU64 a b).getD maxU64

/-- The difference, saturating at zero. -/
def satSub (a b : UInt64) : UInt64 := if b > a then 0 else a - b

private theorem toNat_maxU64_sub : (maxU64 - b).toNat = 2 ^ 64 - 1 - b.toNat := by
  have hle : b ≤ maxU64 := UInt64.le_iff_toNat_le.mpr (toNat_le_maxU64 b)
  rw [UInt64.toNat_sub_of_le _ _ hle, toNat_maxU64]

theorem addU64_eq_none_iff : addU64 a b = none ↔ 2 ^ 64 ≤ a.toNat + b.toNat := by
  have hb := toNat_le_maxU64 b
  simp only [addU64, GT.gt, UInt64.lt_iff_toNat_lt, toNat_maxU64_sub, ite_eq_left_iff,
    reduceCtorEq, imp_false, not_not]
  omega

theorem addU64_eq_some_iff (c : UInt64) : addU64 a b = some c ↔ c.toNat = a.toNat + b.toNat := by
  have hc := c.toNat_lt
  by_cases h : 2 ^ 64 ≤ a.toNat + b.toNat
  · rw [(addU64_eq_none_iff a b).mpr h]
    simp only [reduceCtorEq, false_iff]
    omega
  · have hsum : (a + b).toNat = a.toNat + b.toNat := by
      rw [UInt64.toNat_add, Nat.mod_eq_of_lt (by omega)]
    have hsome : addU64 a b = some (a + b) := by
      rw [addU64, ite_eq_right_iff.mpr]
      intro hgt
      exact absurd ((addU64_eq_none_iff a b).mp (if_pos hgt)) h
    rw [hsome, Option.some.injEq, ← UInt64.toNat_inj, hsum]
    exact eq_comm

theorem toNat_satAdd : (satAdd a b).toNat = min (a.toNat + b.toNat) (2 ^ 64 - 1) := by
  unfold satAdd
  cases h : addU64 a b with
  | none =>
    have := (addU64_eq_none_iff a b).mp h
    simp only [Option.getD_none, toNat_maxU64]
    omega
  | some c =>
    have := (addU64_eq_some_iff a b c).mp h
    have := c.toNat_lt
    simp only [Option.getD_some]
    omega

@[simp] theorem toNat_satSub : (satSub a b).toNat = a.toNat - b.toNat := by
  unfold satSub
  split
  · rename_i h
    have : a.toNat < b.toNat := UInt64.lt_iff_toNat_lt.mp h
    simp only [UInt64.toNat_zero]
    omega
  · rename_i h
    exact UInt64.toNat_sub_of_le _ _ (UInt64.not_lt.mp h)

/-! ### Scaled quantities -/

/-- A 128-bit intermediate product. -/
structure U128 where
  hi : UInt64
  lo : UInt64
  deriving DecidableEq, Repr

/-- The 128-bit product of two 64-bit values. -/
def mulU64 (a b : UInt64) : U128 :=
  ⟨UInt64.ofNat (a.toNat * b.toNat / 2 ^ 64), UInt64.ofNat (a.toNat * b.toNat % 2 ^ 64)⟩

/-- Quotient and remainder by a 64-bit divisor, if there are any in 64 bits. -/
def divmodU128 (v : U128) (d : UInt64) : Option (UInt64 × UInt64) :=
  if d = 0 then none
  else if d ≤ v.hi then none
  else
    let n := v.hi.toNat * 2 ^ 64 + v.lo.toNat
    some (UInt64.ofNat (n / d.toNat), UInt64.ofNat (n % d.toNat))

/-- The floor of `a * num / den`. -/
def mulDivFloor (a num den : UInt64) : Option UInt64 :=
  if den = 0 then none
  else if a = 0 ∨ num = 0 then some 0
  else (divmodU128 (mulU64 a num) den).map Prod.fst

/-- The floor of `a * num / den`, saturating at the maximum. -/
def satMulDivFloor (a num den : UInt64) : UInt64 := (mulDivFloor a num den).getD maxU64

/-- The floored permille share of a quantity. -/
def permille (a : UInt64) (parts : UInt32) : UInt64 := satMulDivFloor a parts.toUInt64 1000

/-! ### Running sums -/

/-- A running sum with an overflow latch. -/
structure SumLatch where
  total : UInt64 := 0
  overflow : Bool := false
  deriving DecidableEq, Repr

namespace SumLatch

/-- Add an amount, and latch an overflow. -/
def add (latch : SumLatch) (v : UInt64) : SumLatch :=
  if latch.overflow then latch
  else match addU64 latch.total v with
    | some total => { latch with total }
    | none => { latch with overflow := true }

/-- The total, or the largest value after an overflow. -/
def saturatedTotal (latch : SumLatch) : UInt64 :=
  if latch.overflow then maxU64 else latch.total

theorem total_add_of_not_overflow {latch : SumLatch} {v : UInt64}
    (h : (latch.add v).overflow = false) :
    (latch.add v).total.toNat = latch.total.toNat + v.toNat := by
  unfold add at h ⊢
  split at h
  · simp_all
  · rename_i hlatch
    rw [if_neg hlatch]
    cases hadd : addU64 latch.total v with
    | none => simp only [hadd, Bool.true_eq_false] at h
    | some c => exact (addU64_eq_some_iff _ _ _).mp hadd

/-- The latch after adding every value of a list. -/
def addAll (latch : SumLatch) (values : List UInt64) : SumLatch := values.foldl add latch

private theorem saturatedTotal_addAll_aux (values : List UInt64) (latch : SumLatch) (n : Nat)
    (hlo : latch.overflow = false → latch.total.toNat = n)
    (hhi : latch.overflow = true → 2 ^ 64 ≤ n) :
    (latch.addAll values).saturatedTotal.toNat =
      min (n + (values.map UInt64.toNat).sum) (2 ^ 64 - 1) := by
  induction values generalizing latch n with
  | nil =>
    obtain ⟨total, overflow⟩ := latch
    cases overflow with
    | true =>
      have := hhi rfl
      simp only [addAll, List.foldl_nil, saturatedTotal, ↓reduceIte, toNat_maxU64, List.map_nil,
        List.sum_nil]
      omega
    | false =>
      have hn : total.toNat = n := hlo rfl
      have hlt := total.toNat_lt
      simp only [addAll, List.foldl_nil, saturatedTotal, Bool.false_eq_true, ↓reduceIte,
        List.map_nil, List.sum_nil]
      omega
  | cons v values ih =>
    have hadd : ((latch.add v).overflow = false → (latch.add v).total.toNat = n + v.toNat) ∧
        ((latch.add v).overflow = true → 2 ^ 64 ≤ n + v.toNat) := by
      obtain ⟨total, overflow⟩ := latch
      cases overflow with
      | true =>
        have := hhi rfl
        simp only [add, ↓reduceIte, Bool.true_eq_false, false_implies, forall_const, true_and]
        omega
      | false =>
        have hn : total.toNat = n := hlo rfl
        cases h : addU64 total v with
        | none => simpa [add, h, ← hn] using (addU64_eq_none_iff _ _).mp h
        | some c => simpa [add, h, ← hn] using (addU64_eq_some_iff _ _ _).mp h
    simpa only [addAll, List.foldl_cons, List.map_cons, List.sum_cons, Nat.add_assoc]
      using ih (latch.add v) (n + v.toNat) hadd.1 hadd.2

theorem toNat_saturatedTotal_addAll (values : List UInt64) :
    (({} : SumLatch).addAll values).saturatedTotal.toNat =
      min (values.map UInt64.toNat).sum (2 ^ 64 - 1) := by
  simpa using saturatedTotal_addAll_aux values {} 0 (fun _ => rfl) (by simp)

end SumLatch

/-! ### Extrema and counting up -/

theorem toNat_min : (min a b).toNat = min a.toNat b.toNat := by
  rw [show min a b = if a ≤ b then a else b from rfl]
  split
  · rename_i h
    rw [Nat.min_eq_left (UInt64.le_iff_toNat_le.mp h)]
  · rename_i h
    rw [Nat.min_eq_right (Nat.le_of_not_le fun hle => h (UInt64.le_iff_toNat_le.mpr hle))]

theorem toNat_max : (max a b).toNat = max a.toNat b.toNat := by
  rw [show max a b = if a ≤ b then b else a from rfl]
  split
  · rename_i h
    rw [Nat.max_eq_right (UInt64.le_iff_toNat_le.mp h)]
  · rename_i h
    rw [Nat.max_eq_left (Nat.le_of_not_le fun hle => h (UInt64.le_iff_toNat_le.mpr hle))]

theorem lt_add_one_of_ne_zero {a : UInt64} (h : a + 1 ≠ 0) : a < a + 1 := by
  have hne : (a + 1).toNat ≠ 0 := fun h0 => h (UInt64.toNat_inj.mp h0)
  have hlt := a.toNat_lt
  rw [UInt64.lt_iff_toNat_lt, UInt64.toNat_add]
  change (a.toNat + 1) % 2 ^ 64 ≠ 0 at hne
  change a.toNat < (a.toNat + 1) % 2 ^ 64
  omega

end AdmissionFabric
