import AdmissionFabric.Core.Checked
import AdmissionFabric.Library.LongDivision
import Mathlib.Tactic.Ring

/-!
# Portable 128-bit arithmetic

Where the compiler has no 128-bit integers, products are assembled from four partial products of
32-bit halves, and quotients come from a shift-and-subtract loop over the low word. In the loop
the remainder is doubled; the bit that leaves the word is kept as a carry, and a remainder with a
carry is larger than every divisor.

Both agree with the arithmetic of the natural numbers, so scaling by a fraction is exact whichever
of the two implementations it is built on.

Source: `include/naf/core/checked.hpp`.
-/

namespace AdmissionFabric

open LongDivision (Divides bringDown)

variable {r : UInt64} (a : UInt64) {i q : Nat} {d quot rem : UInt64} {v : U128}

/-- The number that the two words stand for. -/
def U128.toNat (v : U128) : Nat := v.hi.toNat * 2 ^ 64 + v.lo.toNat

/-! ### Products -/

/-- The product from the partial products of the halves. -/
def mulU64Portable (a b : UInt64) : U128 :=
  let a0 := a &&& 0xFFFFFFFF
  let a1 := a >>> 32
  let b0 := b &&& 0xFFFFFFFF
  let b1 := b >>> 32
  let p00 := a0 * b0
  let p01 := a0 * b1
  let p10 := a1 * b0
  let p11 := a1 * b1
  let mid := (p00 >>> 32) + (p01 &&& 0xFFFFFFFF) + (p10 &&& 0xFFFFFFFF)
  { lo := (p00 &&& (0xFFFFFFFF : UInt64)) ||| (mid <<< (32 : UInt64))
    hi := p11 + (p01 >>> 32) + (p10 >>> 32) + (mid >>> 32) }

theorem toNat_lowHalf : (a &&& 0xFFFFFFFF).toNat = a.toNat % 2 ^ 32 := by
  exact Nat.and_two_pow_sub_one_eq_mod a.toNat 32

theorem toNat_highHalf : (a >>> 32).toNat = a.toNat / 2 ^ 32 := by
  rw [UInt64.toNat_shiftRight, Nat.shiftRight_eq_div_pow]
  rfl

theorem toNat_mul_halves {x y : UInt64} (hx : x.toNat < 2 ^ 32) (hy : y.toNat < 2 ^ 32) :
    (x * y).toNat = x.toNat * y.toNat ∧ x.toNat * y.toNat ≤ (2 ^ 32 - 1) * (2 ^ 32 - 1) := by
  have hle : x.toNat * y.toNat ≤ (2 ^ 32 - 1) * (2 ^ 32 - 1) :=
    Nat.mul_le_mul (Nat.le_pred_of_lt hx) (Nat.le_pred_of_lt hy)
  rw [UInt64.toNat_mul]
  omega

theorem toNat_joinHalves (x y : UInt64) :
    ((x &&& (0xFFFFFFFF : UInt64)) ||| (y <<< (32 : UInt64))).toNat =
      y.toNat % 2 ^ 32 * 2 ^ 32 + x.toNat % 2 ^ 32 := by
  have hshift : (y <<< 32).toNat = (y.toNat % 2 ^ 32) <<< 32 := by
    rw [UInt64.toNat_shiftLeft, Nat.shiftLeft_eq, Nat.shiftLeft_eq]
    change y.toNat * 2 ^ 32 % 2 ^ 64 = _
    omega
  have hlow : x.toNat % 2 ^ 32 < 2 ^ 32 := Nat.mod_lt _ (by decide)
  rw [UInt64.toNat_or, toNat_lowHalf, hshift, Nat.or_comm,
    ← Nat.shiftLeft_add_eq_or_of_lt hlow, Nat.shiftLeft_eq]

theorem mul_of_halves (a b : Nat) :
    a * b = a / 2 ^ 32 * (b / 2 ^ 32) * 2 ^ 64 +
      (a % 2 ^ 32 * (b / 2 ^ 32) + a / 2 ^ 32 * (b % 2 ^ 32)) * 2 ^ 32 +
      a % 2 ^ 32 * (b % 2 ^ 32) := by
  have ha := Nat.div_add_mod a (2 ^ 32)
  have hb := Nat.div_add_mod b (2 ^ 32)
  generalize a / 2 ^ 32 = a1, a % 2 ^ 32 = a0 at ha ⊢
  generalize b / 2 ^ 32 = b1, b % 2 ^ 32 = b0 at hb ⊢
  subst ha hb
  ring

theorem toNat_mulU64Portable (b : UInt64) : (mulU64Portable a b).toNat = a.toNat * b.toNat := by
  have ha := a.toNat_lt
  have hb := b.toNat_lt
  have hsplit := mul_of_halves a.toNat b.toNat
  have ha0 := toNat_lowHalf a
  have ha1 := toNat_highHalf a
  have hb0 := toNat_lowHalf b
  have hb1 := toNat_highHalf b
  rw [← ha0, ← ha1, ← hb0, ← hb1] at hsplit
  simp only [mulU64Portable, U128.toNat]
  generalize a &&& 0xFFFFFFFF = a0, a >>> 32 = a1 at *
  generalize b &&& 0xFFFFFFFF = b0, b >>> 32 = b1 at *
  obtain ⟨h00, hle00⟩ := toNat_mul_halves (x := a0) (y := b0) (by omega) (by omega)
  obtain ⟨h01, hle01⟩ := toNat_mul_halves (x := a0) (y := b1) (by omega) (by omega)
  obtain ⟨h10, hle10⟩ := toNat_mul_halves (x := a1) (y := b0) (by omega) (by omega)
  obtain ⟨h11, hle11⟩ := toNat_mul_halves (x := a1) (y := b1) (by omega) (by omega)
  rw [← h00, ← h01, ← h10, ← h11] at hsplit
  rw [← h00] at hle00
  rw [← h01] at hle01
  rw [← h10] at hle10
  rw [← h11] at hle11
  generalize a0 * b0 = p00, a0 * b1 = p01, a1 * b0 = p10, a1 * b1 = p11 at *
  -- the carries out of the low word collect in the middle sum, which stays below three halves
  have hmid : ((p00 >>> 32) + (p01 &&& 0xFFFFFFFF) + (p10 &&& 0xFFFFFFFF)).toNat =
      p00.toNat / 2 ^ 32 + p01.toNat % 2 ^ 32 + p10.toNat % 2 ^ 32 := by
    rw [UInt64.toNat_add, UInt64.toNat_add, toNat_highHalf, toNat_lowHalf, toNat_lowHalf]
    omega
  generalize (p00 >>> 32) + (p01 &&& 0xFFFFFFFF) + (p10 &&& 0xFFFFFFFF) = mid at hmid ⊢
  have hhi : (p11 + (p01 >>> 32) + (p10 >>> 32) + (mid >>> 32)).toNat =
      p11.toNat + p01.toNat / 2 ^ 32 + p10.toNat / 2 ^ 32 + mid.toNat / 2 ^ 32 := by
    simp only [UInt64.toNat_add, toNat_highHalf]
    omega
  simp only [toNat_joinHalves, hhi]
  omega

/-! ### Quotients -/

/-- One turn of the division, which brings down bit `i` of the low word. -/
def divmodStep (lo d : UInt64) (i : Nat) (quot rem : UInt64) : UInt64 × UInt64 :=
  let bit := (lo >>> UInt64.ofNat i) &&& 1
  let carry := rem >>> 63
  let rem := (rem <<< 1) ||| bit
  if carry ≠ 0 ∨ rem ≥ d then (quot ||| ((1 : UInt64) <<< UInt64.ofNat i), rem - d)
  else (quot, rem)

/-- The turns for the bits below the given position, from the top. -/
def divmodLoop (lo d : UInt64) : Nat → UInt64 → UInt64 → UInt64 × UInt64
  | 0, quot, rem => (quot, rem)
  | i + 1, quot, rem =>
    divmodLoop lo d i (divmodStep lo d i quot rem).1 (divmodStep lo d i quot rem).2

/-- Quotient and remainder by a 64-bit divisor, if there are any in 64 bits. -/
def divmodU128Portable (v : U128) (d : UInt64) : Option (UInt64 × UInt64) :=
  if d = 0 then none
  else if v.hi ≥ d then none
  else some (divmodLoop v.lo d 64 0 v.hi)

theorem toNat_shiftCount (hi : i < 64) : (UInt64.ofNat i).toNat % 64 = i := by
  rw [UInt64.toNat_ofNat']
  omega

theorem toNat_bit (v : U128) (hi : i < 64) :
    ((v.lo >>> UInt64.ofNat i) &&& 1).toNat = v.toNat / 2 ^ i % 2 := by
  have hpow : v.hi.toNat * 2 ^ 64 = 2 * (v.hi.toNat * 2 ^ (63 - i)) * 2 ^ i := by
    rw [show 2 ^ 64 = 2 * (2 ^ (63 - i) * 2 ^ i) by
      rw [← Nat.pow_add, ← Nat.pow_succ', show (63 - i + i).succ = 64 by omega]]
    ring
  rw [UInt64.toNat_and, UInt64.toNat_shiftRight, toNat_shiftCount hi, Nat.shiftRight_eq_div_pow]
  change v.lo.toNat / 2 ^ i &&& 1 = _
  rw [Nat.and_one_is_mod, U128.toNat, hpow, Nat.add_comm,
    Nat.add_mul_div_right _ _ (Nat.two_pow_pos i)]
  omega

theorem toNat_or_bit (hi : i < 64) (hquot : quot.toNat = q * 2 ^ (i + 1)) :
    (quot ||| ((1 : UInt64) <<< UInt64.ofNat i)).toNat = (2 * q + 1) * 2 ^ i := by
  have hbit : ((1 : UInt64) <<< UInt64.ofNat i).toNat = 2 ^ i := by
    rw [UInt64.toNat_shiftLeft, toNat_shiftCount hi, UInt64.toNat_one, Nat.one_shiftLeft]
    exact Nat.mod_eq_of_lt (Nat.pow_lt_pow_right (by decide) hi)
  have hlt : 2 ^ i < 2 ^ (i + 1) := Nat.pow_lt_pow_succ (by decide)
  rw [UInt64.toNat_or, hbit, hquot, ← Nat.shiftLeft_eq, ← Nat.shiftLeft_add_eq_or_of_lt hlt,
    Nat.shiftLeft_eq, Nat.pow_succ]
  ring

theorem toNat_shift_or_bit {bit : UInt64} (hbit : bit.toNat < 2) :
    (rem >>> 63).toNat * 2 ^ 64 + ((rem <<< 1) ||| bit).toNat = 2 * rem.toNat + bit.toNat := by
  have hcarry : (rem >>> 63).toNat = rem.toNat / 2 ^ 63 := by
    rw [UInt64.toNat_shiftRight, Nat.shiftRight_eq_div_pow]
    rfl
  have hdouble : (rem <<< 1).toNat = (rem.toNat % 2 ^ 63) <<< 1 := by
    rw [UInt64.toNat_shiftLeft, Nat.shiftLeft_eq, Nat.shiftLeft_eq]
    change rem.toNat * 2 ^ 1 % 2 ^ 64 = _
    omega
  have hlow : bit.toNat < 2 ^ 1 := hbit
  rw [hcarry, UInt64.toNat_or, hdouble, ← Nat.shiftLeft_add_eq_or_of_lt hlow, Nat.shiftLeft_eq]
  omega

theorem divides_divmodStep (hi : i < 64) (hquot : quot.toNat = q * 2 ^ (i + 1))
    (h : Divides v.toNat d.toNat (i + 1) q rem.toNat) :
    ∃ q', (divmodStep v.lo d i quot rem).1.toNat = q' * 2 ^ i ∧
      Divides v.toNat d.toNat i q' (divmodStep v.lo d i quot rem).2.toNat := by
  have hstep := h.step
  have hd := d.toNat_lt
  have hbit := toNat_bit v hi
  have hdown := @toNat_shift_or_bit rem _ (hbit.trans_lt (Nat.mod_lt _ (by decide)))
  rw [hbit, ← bringDown] at hdown
  simp only [divmodStep]
  generalize (rem <<< 1) ||| ((v.lo >>> UInt64.ofNat i) &&& 1) = shifted at hdown ⊢
  have hword := shifted.toNat_lt
  -- the divisor fits exactly if there is a carry or the word is not smaller
  have hfits : (rem >>> 63 ≠ 0 ∨ shifted ≥ d) ↔ d.toNat ≤ bringDown v.toNat i rem.toNat := by
    rw [ne_eq, ← UInt64.toNat_inj, ge_iff_le, UInt64.le_iff_toNat_le, UInt64.toNat_zero]
    omega
  by_cases hsub : d.toNat ≤ bringDown v.toNat i rem.toNat
  · rw [if_pos (hfits.mpr hsub)]
    rw [if_pos hsub, if_pos hsub] at hstep
    refine ⟨2 * q + 1, toNat_or_bit hi hquot, ?_⟩
    have hrem : (shifted - d).toNat = bringDown v.toNat i rem.toNat - d.toNat := by
      have hsmall := hstep.lt
      rw [UInt64.toNat_sub]
      omega
    rw [hrem]
    exact hstep
  · rw [if_neg (fun hcond => hsub (hfits.mp hcond))]
    rw [if_neg hsub, if_neg hsub] at hstep
    refine ⟨2 * q, by rw [hquot, Nat.pow_succ]; ring, ?_⟩
    have hrem : shifted.toNat = bringDown v.toNat i rem.toNat - 0 := by omega
    rw [hrem]
    exact hstep

theorem divides_divmodLoop (hi : i ≤ 64) (hquot : quot.toNat = q * 2 ^ i)
    (h : Divides v.toNat d.toNat i q rem.toNat) :
    v.toNat = (divmodLoop v.lo d i quot rem).1.toNat * d.toNat +
        (divmodLoop v.lo d i quot rem).2.toNat ∧
      (divmodLoop v.lo d i quot rem).2.toNat < d.toNat := by
  induction i generalizing quot rem q with
  | zero =>
    obtain rfl : quot.toNat = q := by simpa using hquot
    exact h.result
  | succ i ih =>
    obtain ⟨q', hquot', h'⟩ := divides_divmodStep hi hquot h
    exact ih (by omega) hquot' h'

theorem div_lt_iff_hi_lt (v : U128) (hd : d ≠ 0) :
    v.toNat / d.toNat < 2 ^ 64 ↔ v.hi.toNat < d.toNat := by
  have hpos : 0 < d.toNat := Nat.pos_of_ne_zero fun h0 => hd (UInt64.toNat_inj.mp h0)
  have hlo := v.lo.toNat_lt
  rw [Nat.div_lt_iff_lt_mul hpos, U128.toNat]
  constructor
  · intro h
    by_contra hle
    omega
  · intro h
    have := Nat.mul_le_mul_left (2 ^ 64) (Nat.succ_le_of_lt h)
    omega

theorem divmodU128Portable_eq_none_iff (v : U128) (d : UInt64) :
    divmodU128Portable v d = none ↔ d = 0 ∨ 2 ^ 64 ≤ v.toNat / d.toNat := by
  unfold divmodU128Portable
  by_cases hd : d = 0
  · simp [hd]
  · have hfits := div_lt_iff_hi_lt v hd
    rw [if_neg hd, or_iff_right hd]
    by_cases hhi : v.hi ≥ d
    · rw [if_pos hhi]
      have hle := UInt64.le_iff_toNat_le.mp hhi
      exact iff_of_true rfl (by omega)
    · rw [if_neg hhi]
      have hlt := UInt64.not_le.mp hhi
      rw [UInt64.lt_iff_toNat_lt] at hlt
      exact iff_of_false (Option.some_ne_none _) (by omega)

theorem divmodU128Portable_spec {q : UInt64} (h : divmodU128Portable v d = some (q, r)) :
    v.toNat = q.toNat * d.toNat + r.toNat ∧ r.toNat < d.toNat := by
  unfold divmodU128Portable at h
  split at h
  · cases h
  · split at h
    · cases h
    · rename_i hhi
      rw [ge_iff_le, UInt64.le_iff_toNat_le, Nat.not_le] at hhi
      have hlo := v.lo.toNat_lt
      have htop : v.toNat / 2 ^ 64 = v.hi.toNat := by
        rw [U128.toNat]
        omega
      have hinit : Divides v.toNat d.toNat 64 0 v.hi.toNat :=
        htop ▸ Divides.init (htop ▸ hhi)
      obtain ⟨rfl, rfl⟩ := Prod.mk.inj (Option.some.inj h)
      exact divides_divmodLoop (Nat.le_refl _) rfl hinit

/-! ### Scaling -/

/-- The floor of `a * num / den`, with the product and the quotient of an implementation. -/
def mulDivFloorOn (mul : UInt64 → UInt64 → U128) (divmod : U128 → UInt64 → Option (UInt64 × UInt64))
    (a num den : UInt64) : Option UInt64 :=
  if den = 0 then none
  else if a = 0 ∨ num = 0 then some 0
  else (divmod (mul a num) den).map Prod.fst

/-- The ceiling of `a * num / den`, with the product and the quotient of an implementation. -/
def mulDivCeilOn (mul : UInt64 → UInt64 → U128) (divmod : U128 → UInt64 → Option (UInt64 × UInt64))
    (a num den : UInt64) : Option UInt64 :=
  if den = 0 then none
  else if a = 0 ∨ num = 0 then some 0
  else (divmod (mul a num) den).bind fun result =>
    if result.2 ≠ 0 then if result.1 = maxU64 then none else some (result.1 + 1)
    else some result.1

/-- A product and a division by a word that are exact. -/
structure ExactWide (mul : UInt64 → UInt64 → U128)
    (divmod : U128 → UInt64 → Option (UInt64 × UInt64)) : Prop where
  mul_eq : ∀ a b, (mul a b).toNat = a.toNat * b.toNat
  refused : ∀ v d, divmod v d = none ↔ d = 0 ∨ 2 ^ 64 ≤ v.toNat / d.toNat
  divides : ∀ v d q r, divmod v d = some (q, r) →
    v.toNat = q.toNat * d.toNat + r.toNat ∧ r.toNat < d.toNat

theorem exactWide_portable : ExactWide mulU64Portable divmodU128Portable :=
  ⟨toNat_mulU64Portable, divmodU128Portable_eq_none_iff, fun _ _ _ _ => divmodU128Portable_spec⟩

namespace ExactWide

variable {mul : UInt64 → UInt64 → U128} {divmod : U128 → UInt64 → Option (UInt64 × UInt64)}

theorem div_eq (h : ExactWide mul divmod) {a num den q : UInt64}
    (hdiv : divmod (mul a num) den = some (q, r)) :
    a.toNat * num.toNat / den.toNat = q.toNat ∧
      (a.toNat * num.toNat + den.toNat - 1) / den.toNat =
        q.toNat + if r = 0 then 0 else 1 := by
  obtain ⟨heq, hlt⟩ := h.divides _ _ _ _ hdiv
  rw [h.mul_eq] at heq
  have hzero : r = 0 ↔ r.toNat = 0 := by
    rw [← UInt64.toNat_inj]
    rfl
  rw [heq]
  refine ⟨?_, ?_⟩
  · rw [Nat.mul_comm, Nat.mul_add_div (by omega), Nat.div_eq_of_lt hlt, Nat.add_zero]
  · by_cases hr : r = 0
    · rw [if_pos hr, hzero.mp hr]
      have hsum : q.toNat * den.toNat + 0 + den.toNat - 1 =
          den.toNat * q.toNat + (den.toNat - 1) := by
        rw [Nat.mul_comm]
        omega
      rw [hsum, Nat.mul_add_div (by omega), Nat.div_eq_of_lt (by omega)]
    · rw [if_neg hr]
      have hne : r.toNat ≠ 0 := fun h0 => hr (hzero.mpr h0)
      have hsum : q.toNat * den.toNat + r.toNat + den.toNat - 1 =
          den.toNat * (q.toNat + 1) + (r.toNat - 1) := by
        rw [Nat.mul_comm, Nat.mul_add, Nat.mul_one]
        omega
      rw [hsum, Nat.mul_add_div (by omega), Nat.div_eq_of_lt (by omega), Nat.add_zero]

theorem div_le_ceil (n d : Nat) : n / d ≤ (n + d - 1) / d := by
  rcases Nat.eq_zero_or_pos d with rfl | hd
  · simp
  · exact Nat.div_le_div_right (by omega)

theorem floor_eq (h : ExactWide mul divmod) (a num den : UInt64) :
    (mulDivFloorOn mul divmod a num den = none ↔
      den = 0 ∨ 2 ^ 64 ≤ a.toNat * num.toNat / den.toNat) ∧
    ∀ q, mulDivFloorOn mul divmod a num den = some q →
      q.toNat = a.toNat * num.toNat / den.toNat := by
  unfold mulDivFloorOn
  by_cases hden : den = 0
  · simp [hden]
  · rw [if_neg hden]
    by_cases hzero : a = 0 ∨ num = 0
    · have hproduct : a.toNat * num.toNat = 0 := by
        rcases hzero with rfl | rfl <;> simp
      rw [if_pos hzero, hproduct, Nat.zero_div]
      refine ⟨iff_of_false (Option.some_ne_none _) (by simp [hden]), ?_⟩
      rintro _ ⟨⟩
      rfl
    · rw [if_neg hzero, Option.map_eq_none_iff, h.refused, h.mul_eq]
      refine ⟨Iff.rfl, fun q hq => ?_⟩
      obtain ⟨⟨_, r⟩, hdiv, rfl⟩ := Option.map_eq_some_iff.mp hq
      exact (h.div_eq hdiv).1.symm

theorem ceil_eq (h : ExactWide mul divmod) (a num den : UInt64) :
    (mulDivCeilOn mul divmod a num den = none ↔
      den = 0 ∨ 2 ^ 64 ≤ (a.toNat * num.toNat + den.toNat - 1) / den.toNat) ∧
    ∀ q, mulDivCeilOn mul divmod a num den = some q →
      q.toNat = (a.toNat * num.toNat + den.toNat - 1) / den.toNat := by
  unfold mulDivCeilOn
  by_cases hden : den = 0
  · simp [hden]
  · have hpos : 0 < den.toNat := Nat.pos_of_ne_zero fun h0 => hden (UInt64.toNat_inj.mp h0)
    rw [if_neg hden, or_iff_right hden]
    by_cases hzero : a = 0 ∨ num = 0
    · have hproduct : a.toNat * num.toNat = 0 := by
        rcases hzero with rfl | rfl <;> simp
      have hceil : (0 + den.toNat - 1) / den.toNat = 0 := Nat.div_eq_of_lt (by omega)
      rw [if_pos hzero, hproduct, hceil]
      refine ⟨iff_of_false (Option.some_ne_none _) (by decide), ?_⟩
      rintro _ ⟨⟩
      rfl
    · rw [if_neg hzero]
      cases hdiv : divmod (mul a num) den with
      | none =>
        have hlarge := ((h.refused _ _).mp hdiv).resolve_left hden
        rw [h.mul_eq] at hlarge
        refine ⟨iff_of_true rfl (hlarge.trans (div_le_ceil _ _)), ?_⟩
        rintro _ ⟨⟩
      | some result =>
        obtain ⟨q, r⟩ := result
        have hq := q.toNat_lt
        rw [(h.div_eq hdiv).2, Option.bind_some]
        by_cases hr : r = 0
        · simp only [hr, ne_eq, not_true_eq_false, ↓reduceIte, Nat.add_zero]
          refine ⟨iff_of_false (Option.some_ne_none _) (by omega), ?_⟩
          rintro _ ⟨⟩
          rfl
        · simp only [hr, ne_eq, not_false_eq_true, ↓reduceIte]
          by_cases hmax : q = maxU64
          · rw [if_pos hmax, hmax, toNat_maxU64]
            refine ⟨iff_of_true rfl (by decide), ?_⟩
            rintro _ ⟨⟩
          · have hne : q.toNat ≠ 2 ^ 64 - 1 := fun hq => hmax (UInt64.toNat_inj.mp hq)
            have hsucc : (q + 1).toNat = q.toNat + 1 := by
              rw [UInt64.toNat_add, UInt64.toNat_one]
              omega
            rw [if_neg hmax]
            refine ⟨iff_of_false (Option.some_ne_none _) (by omega), ?_⟩
            rintro _ ⟨⟩
            exact hsucc

end ExactWide

/-- The portable product and division are exact, and so is scaling on top of them. -/
theorem wide_arithmetic_exact :
    (∀ a b, (mulU64Portable a b).hi.toNat * 2 ^ 64 + (mulU64Portable a b).lo.toNat =
      a.toNat * b.toNat) ∧
    (∀ (v : U128) d, divmodU128Portable v d = none ↔
      d = 0 ∨ 2 ^ 64 ≤ (v.hi.toNat * 2 ^ 64 + v.lo.toNat) / d.toNat) ∧
    (∀ (v : U128) d q r, divmodU128Portable v d = some (q, r) →
      v.hi.toNat * 2 ^ 64 + v.lo.toNat = q.toNat * d.toNat + r.toNat ∧ r.toNat < d.toNat) ∧
    ∀ a num den,
      ((mulDivFloorOn mulU64Portable divmodU128Portable a num den = none ↔
          den = 0 ∨ 2 ^ 64 ≤ a.toNat * num.toNat / den.toNat) ∧
        ∀ q, mulDivFloorOn mulU64Portable divmodU128Portable a num den = some q →
          q.toNat = a.toNat * num.toNat / den.toNat) ∧
      (mulDivCeilOn mulU64Portable divmodU128Portable a num den = none ↔
          den = 0 ∨ 2 ^ 64 ≤ (a.toNat * num.toNat + den.toNat - 1) / den.toNat) ∧
        ∀ q, mulDivCeilOn mulU64Portable divmodU128Portable a num den = some q →
          q.toNat = (a.toNat * num.toNat + den.toNat - 1) / den.toNat :=
  ⟨exactWide_portable.mul_eq, exactWide_portable.refused, exactWide_portable.divides,
    fun a num den => ⟨exactWide_portable.floor_eq a num den, exactWide_portable.ceil_eq a num den⟩⟩

/-! ### Scaling with the arithmetic of the compiler -/

theorem exactWide_native : ExactWide mulU64 divmodU128 where
  mul_eq a b := by
    have hlt : a.toNat * b.toNat < 2 ^ 64 * 2 ^ 64 := Nat.mul_lt_mul'' a.toNat_lt b.toNat_lt
    have hhi : a.toNat * b.toNat / 2 ^ 64 < 2 ^ 64 := Nat.div_lt_of_lt_mul hlt
    rw [U128.toNat, mulU64, UInt64.toNat_ofNat', UInt64.toNat_ofNat', Nat.mod_eq_of_lt hhi,
      Nat.mod_mod, Nat.div_add_mod']
  refused v d := by
    unfold divmodU128
    by_cases hd : d = 0
    · simp [hd]
    · have hfits := div_lt_iff_hi_lt v hd
      rw [if_neg hd, or_iff_right hd]
      by_cases hhi : d ≤ v.hi
      · rw [if_pos hhi]
        have hle := UInt64.le_iff_toNat_le.mp hhi
        exact iff_of_true rfl (by omega)
      · rw [if_neg hhi]
        have hlt := UInt64.lt_iff_toNat_lt.mp (UInt64.not_le.mp hhi)
        exact iff_of_false (Option.some_ne_none _) (by omega)
  divides v d q r h := by
    unfold divmodU128 at h
    split at h
    · cases h
    · rename_i hd
      split at h
      · cases h
      · rename_i hhi
        have hlt := (div_lt_iff_hi_lt v hd).mpr (UInt64.lt_iff_toNat_lt.mp (UInt64.not_le.mp hhi))
        have hpos : 0 < d.toNat := Nat.pos_of_ne_zero fun h0 => hd (UInt64.toNat_inj.mp h0)
        have hmod := Nat.mod_lt v.toNat hpos
        have hmodLt := hmod.trans d.toNat_lt
        obtain ⟨rfl, rfl⟩ := Prod.mk.inj (Option.some.inj h)
        rw [UInt64.toNat_ofNat', UInt64.toNat_ofNat']
        change v.toNat = v.toNat / d.toNat % 2 ^ 64 * d.toNat + v.toNat % d.toNat % 2 ^ 64 ∧
          v.toNat % d.toNat % 2 ^ 64 < d.toNat
        rw [Nat.mod_eq_of_lt hlt, Nat.mod_eq_of_lt hmodLt]
        exact ⟨(Nat.div_add_mod' _ _).symm, hmod⟩

theorem toNat_permille (parts : UInt32) :
    (permille a parts).toNat = min (a.toNat * parts.toNat / 1000) (2 ^ 64 - 1) := by
  obtain ⟨hnone, hsome⟩ := exactWide_native.floor_eq a parts.toUInt64 1000
  rw [permille, satMulDivFloor]
  cases hfloor : mulDivFloor a parts.toUInt64 1000 with
  | none =>
    have hlarge := (hnone.mp hfloor).resolve_left (by decide)
    have hden : (1000 : UInt64).toNat = 1000 := rfl
    rw [UInt32.toNat_toUInt64, hden] at hlarge
    rw [Option.getD_none, toNat_maxU64]
    omega
  | some q =>
    have hq := hsome q hfloor
    have hlt := q.toNat_lt
    have hden : (1000 : UInt64).toNat = 1000 := rfl
    rw [UInt32.toNat_toUInt64, hden] at hq
    rw [Option.getD_some]
    omega

end AdmissionFabric
