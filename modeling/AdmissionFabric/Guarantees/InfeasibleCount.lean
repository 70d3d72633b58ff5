import AdmissionFabric.Engine.FabricStatus
import AdmissionFabric.Engine.Lifetime

/-!
# The count of infeasible resources

A resource is infeasible if the obligations on it and its headroom together exceed its usable
capacity. The status adds two figures: the count that the last enforcement pass latched, and a
recount over the current snapshot. After a pass every infeasible resource is in both, and is
reported twice.

The recount itself compares a saturating sum, which cannot exceed the largest capacity: a resource
at the 64-bit limit is never in it. The reported figure is therefore right exactly if the latched
count happens to be the number of such resources.
-/

namespace AdmissionFabric

namespace Authority

variable {authority : Authority} {snapshot : CapacitySnapshot}

/-- The known resources whose obligations and headroom exceed their usable capacity. -/
def exactInfeasible (authority : Authority) (snapshot : CapacitySnapshot) : Nat :=
  (snapshot.resources.filter fun entry => entry.evidence = .known ∧
    entry.usable.toNat <
      authority.obligationLoadOn entry.resource + (authority.headroomFor entry).toNat).length

/-- The infeasible resources whose usable capacity is the largest there is. -/
def maskedInfeasible (authority : Authority) (snapshot : CapacitySnapshot) : Nat :=
  ((snapshot.resources.filter fun entry => entry.evidence = .known ∧
    entry.usable.toNat <
      authority.obligationLoadOn entry.resource + (authority.headroomFor entry).toNat).filter
        fun entry => entry.usable = maxU64).length

theorem usable_lt_satAdd_iff {entry : ResourceCapacity} :
    satAdd (authority.obligationsFor entry.resource) (authority.headroomFor entry) > entry.usable ↔
      entry.usable.toNat < authority.obligationLoadOn entry.resource +
        (authority.headroomFor entry).toNat ∧ entry.usable ≠ maxU64 := by
  have hmax : entry.usable = maxU64 ↔ entry.usable.toNat = 2 ^ 64 - 1 := by
    rw [← UInt64.toNat_inj, toNat_maxU64]
  have hlt := entry.usable.toNat_lt
  rw [gt_iff_lt, UInt64.lt_iff_toNat_lt, toNat_satAdd, toNat_obligationsFor, Ne, hmax]
  omega

theorem exactInfeasible_eq (authority : Authority) (snapshot : CapacitySnapshot) :
    authority.exactInfeasible snapshot =
      authority.maskedInfeasible snapshot + authority.infeasibleResources snapshot := by
  rw [exactInfeasible, List.length_eq_length_filter_add fun entry => decide (entry.usable = maxU64),
    maskedInfeasible, infeasibleResources]
  congr 2
  rw [List.filter_filter]
  refine List.filter_congr fun entry _ => ?_
  rw [Bool.eq_iff_iff]
  simp only [usable_lt_satAdd_iff, Bool.and_eq_true, Bool.not_eq_true', decide_eq_false_iff_not,
    decide_eq_true_eq]
  tauto

end Authority

namespace EngineCore

/-- The status reports the exact number of infeasible resources if and only if the count that the
last pass latched is the number of those that the recount leaves out. -/
theorem infeasible_status_iff {core : EngineCore} {snapshot : CapacitySnapshot}
    (hcapacity : core.capacity = some snapshot) :
    core.statusLocked.infeasibleResources = core.exactInfeasible snapshot ↔
      core.reconciliation.infeasibleResources = core.maskedInfeasible snapshot := by
  rw [core.exactInfeasible_eq snapshot, statusLocked]
  simp only [hcapacity]
  omega

/-- A snapshot of resource `7`. -/
def sevenCapacity (usable headroom : Rate) : CapacitySnapshot :=
  SmallFabric.capacity 1 [{ SmallFabric.known 7 1 usable with mandatoryHeadroom := headroom }]

/-- Resource `7` with an obligation on it. -/
def obliged (usable headroom reserved : Rate) : EngineCore :=
  (fresh {}).performAll
    [.publishPolicy SmallFabric.policy, .publishCapacity (sevenCapacity usable headroom),
      .publishReservations { SmallFabric.reservations with
        obligations := [{
          reservation := 1, reservationGeneration := 1, resource := 7, reserved := reserved }] }]

theorem reachable_obliged (usable headroom reserved : Rate) :
    TransitionSystem.Reachable Starting follow (fun _ _ => True)
      (obliged usable headroom reserved) :=
  reachable_performAll (.init (Or.inl ⟨{}, rfl⟩)) _

/-- Resource `7` at the 64-bit limit, and resource `8`. -/
def bothCapacity : CapacitySnapshot :=
  SmallFabric.capacity 1
    [{ SmallFabric.known 7 1 maxU64 with mandatoryHeadroom := 1 }, SmallFabric.known 8 1 10]

/-- Both resources with more obligations than they carry. -/
def bothObliged : EngineCore :=
  (fresh {}).performAll
    [.publishPolicy SmallFabric.policy, .publishCapacity bothCapacity,
      .publishReservations { SmallFabric.reservations with
        obligations := [
          { reservation := 1, reservationGeneration := 1, resource := 7, reserved := maxU64 },
          { reservation := 2, reservationGeneration := 1, resource := 8, reserved := 11 }] }]

/-- Both resources are infeasible. The recount leaves one out, and the pass has latched the other,
so two are reported. -/
theorem infeasible_status_bothObliged :
    bothObliged.statusLocked.infeasibleResources = bothObliged.exactInfeasible bothCapacity ∧
      bothObliged.exactInfeasible bothCapacity = 2 := by
  have hcapacity : bothObliged.capacity = some bothCapacity := by decide +kernel
  exact ⟨(infeasible_status_iff hcapacity).mpr (by decide +kernel), by decide +kernel⟩

/-- An obligation of eleven on ten units makes one resource infeasible, and two are reported. An
obligation of the largest capacity beside one unit of headroom makes one resource infeasible, and
none is reported. -/
theorem infeasible_miscounted :
    (∃ core snapshot, TransitionSystem.Reachable Starting follow (fun _ _ => True) core ∧
      core.capacity = some snapshot ∧ core.exactInfeasible snapshot = 1 ∧
      core.statusLocked.infeasibleResources = 2) ∧
    ∃ core snapshot, TransitionSystem.Reachable Starting follow (fun _ _ => True) core ∧
      core.capacity = some snapshot ∧ core.exactInfeasible snapshot = 1 ∧
      core.statusLocked.infeasibleResources = 0 := by
  refine ⟨⟨obliged 10 0 11, sevenCapacity 10 0, reachable_obliged _ _ _, ?_⟩,
    ⟨obliged maxU64 1 maxU64, sevenCapacity maxU64 1, reachable_obliged _ _ _, ?_⟩⟩
  · decide +kernel
  · decide +kernel

end EngineCore

end AdmissionFabric
