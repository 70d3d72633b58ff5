import AdmissionFabric.Core.WideArithmetic
import AdmissionFabric.Engine.EvaluateSpec
import AdmissionFabric.Engine.SmallFabric

/-!
# More room never hurts a request

A resource with more usable capacity also sets more headroom aside, because the policy asks for a
permille share of the capacity. The share is rounded down, so one more unit of capacity takes at
most one more unit of headroom, and what is left over the headroom never shrinks.

From there the capacity stage is monotone: fewer obligations and less admitted load only add to
what is left, and the ceiling of a grant is the least of what the targets have free.
-/

namespace AdmissionFabric

/-! ### Headroom -/

/-- What is left beside a rounded share grows with the whole. -/
theorem sub_share_le_sub_share {u v bound : Nat} (p : Nat) (huv : u ≤ v) (hv : v ≤ bound) :
    u - min (u * p / 1000) bound ≤ v - min (v * p / 1000) bound := by
  by_cases hp : p ≤ 1000
  · -- one more unit of the whole takes at most one more unit of the share
    obtain ⟨k, rfl⟩ := Nat.exists_eq_add_of_le huv
    have hstep : (u + k) * p / 1000 ≤ u * p / 1000 + k := by
      rw [← Nat.add_mul_div_right _ _ (by decide : 0 < 1000), Nat.add_mul]
      exact Nat.div_le_div_right (Nat.add_le_add_left (Nat.mul_le_mul_left k hp) _)
    have hshare : u * p / 1000 ≤ u := by
      calc u * p / 1000 ≤ u * 1000 / 1000 :=
            Nat.div_le_div_right (Nat.mul_le_mul_left u hp)
        _ = u := Nat.mul_div_cancel u (by decide)
    omega
  · have hshare : u ≤ u * p / 1000 := by
      calc u = u * 1000 / 1000 := (Nat.mul_div_cancel u (by decide)).symm
        _ ≤ u * p / 1000 :=
            Nat.div_le_div_right (Nat.mul_le_mul_left u (Nat.le_of_not_le hp))
    omega

namespace Authority

variable {authority authority' : Authority} {ledger ledger' : AdmittedLoadLedger}
  {request : AdmissionRequest} {targets : List ResourceId}

theorem usable_sub_headroomFor_le {entry entry' : ResourceCapacity}
    (hpolicy : authority'.policy = authority.policy) (husable : entry.usable ≤ entry'.usable)
    (hmandatory : entry'.mandatoryHeadroom = entry.mandatoryHeadroom) :
    entry.usable.toNat - (authority.headroomFor entry).toNat ≤
      entry'.usable.toNat - (authority'.headroomFor entry').toNat := by
  have hle := UInt64.le_iff_toNat_le.mp husable
  unfold headroomFor
  rw [hpolicy, hmandatory]
  cases authority.policy with
  | none =>
    simp only [toNat_min]
    omega
  | some policy =>
    have hlt := entry'.usable.toNat_lt
    have hshare := sub_share_le_sub_share policy.headroomPermille.toNat hle
      (Nat.le_sub_one_of_lt hlt)
    simp only [toNat_min, toNat_max, toNat_permille]
    omega

/-! ### The capacity stage -/

/-- The second state differs from the first in that it leaves at least as much room on the
targets: more usable capacity under the same mandatory headroom, fewer obligations and less
admitted load. -/
structure Roomier (authority authority' : Authority) (ledger ledger' : AdmittedLoadLedger)
    (targets : List ResourceId) : Prop where
  policy : authority'.policy = authority.policy
  usable : ∀ r ∈ targets, ∀ entry ∈ authority.knownCapacity r,
    ∃ entry' ∈ authority'.knownCapacity r, entry.usable ≤ entry'.usable ∧
      entry'.mandatoryHeadroom = entry.mandatoryHeadroom
  obligations : ∀ r ∈ targets, authority'.obligationsFor r ≤ authority.obligationsFor r
  admitted : ∀ r ∈ targets, ledger'.admitted r ≤ ledger.admitted r

theorem freeOn_le_freeOn (h : Roomier authority authority' ledger ledger' targets)
    {r : ResourceId} (hr : r ∈ targets) {free : Rate} (hfree : free ∈ authority.freeOn ledger r) :
    ∃ free' ∈ authority'.freeOn ledger' r, free ≤ free' := by
  obtain ⟨entry, hknown, rfl⟩ := Option.map_eq_some_iff.mp hfree
  obtain ⟨entry', hknown', husable, hmandatory⟩ := h.usable r hr entry hknown
  refine ⟨_, Option.map_eq_some_iff.mpr ⟨entry', hknown', rfl⟩, ?_⟩
  have hleft := usable_sub_headroomFor_le h.policy husable hmandatory
  have hobligations := UInt64.le_iff_toNat_le.mp (h.obligations r hr)
  have hadmitted := UInt64.le_iff_toNat_le.mp (h.admitted r hr)
  rw [UInt64.le_iff_toNat_le, toNat_satSub, toNat_satSub, allowance, allowance, toNat_satSub,
    toNat_satSub, toNat_satSub, toNat_satSub]
  omega

theorem evaluateCapacity_none_eq_ok_iff {ceiling : Rate} {binding : BindingConstraint} :
    (authority.evaluateCapacity ledger request targets none).1 = .ok (ceiling, binding) ↔
      ∃ limit, (authority.scanTargets ledger request { rate := request.rate.maximum } []
        targets).1 = .ok limit ∧ bindingOf request limit = (ceiling, binding) := by
  simp only [evaluateCapacity]
  cases (authority.scanTargets ledger request { rate := request.rate.maximum } [] targets).1 with
  | error refusal => simp [Except.bind, Except.map]
  | ok limit => simp [Except.bind, Except.map, capByPath]

/-- What the capacity stage admits, it admits in every roomier state, at a ceiling at least as
high. -/
theorem evaluateCapacity_monotone {ceiling : Rate} {binding : BindingConstraint}
    (h : Roomier authority authority' ledger ledger' targets)
    (hgranted : (authority.evaluateCapacity ledger request targets none).1 =
      .ok (ceiling, binding)) :
    ∃ ceiling' binding', (authority'.evaluateCapacity ledger' request targets none).1 =
      .ok (ceiling', binding') ∧ ceiling ≤ ceiling' := by
  obtain ⟨limit, hscan, hbinding⟩ := evaluateCapacity_none_eq_ok_iff.mp hgranted
  obtain ⟨hroom, hrate⟩ := scanTargets_spec hscan
  -- every target has room for the minimum in the second state as well
  have hroom' : ∀ r ∈ targets, ∃ free ∈ authority'.freeOn ledger' r,
      request.rate.minimum ≤ free := by
    intro r hr
    obtain ⟨free, hfree, hmin⟩ := hroom r hr
    obtain ⟨free', hfree', hle⟩ := freeOn_le_freeOn h hr hfree
    exact ⟨free', hfree', UInt64.le_trans hmin hle⟩
  obtain ⟨limit', hscan'⟩ := scanTargets_isOk hroom' { rate := request.rate.maximum } []
  refine ⟨_, _, evaluateCapacity_none_eq_ok_iff.mpr ⟨limit', hscan', rfl⟩, ?_⟩
  obtain ⟨rfl, -⟩ := Prod.mk.inj hbinding
  -- the first limit is below everything the second is the least of
  obtain ⟨hmaximum, hbelow⟩ := (hrate limit.rate).mp (UInt64.le_refl _)
  refine ((scanTargets_spec hscan').2 _).mpr ⟨hmaximum, ?_⟩
  intro r hr free' hfree'
  obtain ⟨free, hfree, -⟩ := hroom r hr
  obtain ⟨free'', hfree'', hle⟩ := freeOn_le_freeOn h hr hfree
  obtain rfl := Option.mem_unique hfree' hfree''
  exact UInt64.le_trans (hbelow r hr free hfree) hle

/-- A tenth of the capacity of resource `7` is headroom. -/
def tenthHeld (usable : Rate) : Authority :=
  ((EngineCore.fresh {}).performAll
    [.publishPolicy { SmallFabric.policy with headroomPermille := 100 },
      .publishCapacity (SmallFabric.capacity 1 [SmallFabric.known 7 1 usable])]).toAuthority

theorem roomier_tenthHeld : Roomier (tenthHeld 19) (tenthHeld 20) {} {} [7] where
  policy := by decide +kernel
  usable := by
    have hknown : (tenthHeld 19).knownCapacity 7 = some (SmallFabric.known 7 1 19) := by
      decide +kernel
    have hknown' : (tenthHeld 20).knownCapacity 7 = some (SmallFabric.known 7 1 20) := by
      decide +kernel
    intro r hr
    rw [List.mem_singleton.mp hr, hknown, hknown']
    rintro entry ⟨⟩
    exact ⟨_, rfl, by decide, rfl⟩
  obligations := by
    intro r hr
    rw [List.mem_singleton.mp hr]
    decide +kernel
  admitted := by
    intro r _
    exact UInt64.le_refl _

/-- At nineteen and at twenty units, one unit and two units are headroom. -/
theorem evaluateCapacity_tenthHeld :
    ∃ ceiling' binding', ((tenthHeld 20).evaluateCapacity {}
      (SmallFabric.request 1 ⟨1, 100, 100⟩ [7]) [7] none).1 = .ok (ceiling', binding') ∧
        18 ≤ ceiling' := by
  have hgranted : ((tenthHeld 19).evaluateCapacity {} (SmallFabric.request 1 ⟨1, 100, 100⟩ [7])
      [7] none).1 = .ok (bindingOf (SmallFabric.request 1 ⟨1, 100, 100⟩ [7])
        { rate := 18, kind := .admittedLoad, subject := "resource", subjectId := 7 }) := by
    decide +kernel
  exact evaluateCapacity_monotone roomier_tenthHeld hgranted

end Authority

end AdmissionFabric
