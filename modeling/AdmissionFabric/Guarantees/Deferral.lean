import AdmissionFabric.Engine.EvaluateSpec
import AdmissionFabric.Engine.SmallFabric

/-!
# When a request is deferred

The capacity stage looks at the targets in order and gives its verdict at the first one without room
for the demand minimum. A claimant that prefers to wait is deferred there in two cases. Either the
obligations on that resource stand in the way and one of them is released in time, whatever its
size; or the admitted load stands in the way and there is any time to wait at all.

Nothing is said about whether the release is large enough, and nothing about the targets behind the
first one without room.
-/

namespace AdmissionFabric

namespace Authority

variable {resource : ResourceId}

/-- An obligation on the resource that may be given up is released after the current tick and no
later than the claimant and the policy are willing to wait. -/
def ReleasesInTime (authority : Authority) (request : AdmissionRequest) (resource : ResourceId) :
    Prop :=
  ∃ o ∈ obligationsOf authority.reservations, o.resource = resource ∧ o.inviolable = false ∧
    authority.tick < o.releaseTick ∧
    o.releaseTick.toNat ≤ authority.tick.toNat + (authority.willing request).toNat

/-- The verdict on a resource is to wait: the claimant prefers it, the minimum fits beside the
headroom, and either the obligations are in the way and one of them is released in time, or only the
admitted load is and there is time to wait. -/
structure Defers (authority : Authority) (ledger : AdmittedLoadLedger) (request : AdmissionRequest)
    (resource : ResourceId) (entry : ResourceCapacity) : Prop where
  preferred : authority.deferPreferred request = true
  headroom : request.rate.minimum.toNat ≤
    entry.usable.toNat - (authority.headroomFor entry).toNat
  expected : (entry.usable.toNat - (authority.headroomFor entry).toNat -
        authority.obligationLoadOn resource < request.rate.minimum.toNat ∧
      authority.ReleasesInTime request resource) ∨
    (request.rate.minimum.toNat ≤ entry.usable.toNat - (authority.headroomFor entry).toNat -
        authority.obligationLoadOn resource ∧
      entry.usable.toNat - (authority.headroomFor entry).toNat -
        authority.obligationLoadOn resource - (ledger.admitted resource).toNat <
          request.rate.minimum.toNat ∧
      authority.willing request ≠ 0)

variable {authority : Authority} {ledger : AdmittedLoadLedger} {request : AdmissionRequest}

theorem obligationReleasesWithin_eq_true_iff :
    authority.obligationReleasesWithin resource
        (satAdd authority.tick (authority.willing request)) = true ↔
      authority.ReleasesInTime request resource := by
  simp only [obligationReleasesWithin, List.any_eq_true, mem_indexedObligations, ReleasesInTime,
    Bool.and_eq_true, Bool.not_eq_true', decide_eq_true_eq, UInt64.le_iff_toNat_le, toNat_satAdd,
    and_assoc]
  refine exists_congr fun o => and_congr_right fun _ => and_congr_right fun _ =>
    and_congr_right fun _ => and_congr_right fun _ => ?_
  have := o.releaseTick.toNat_lt
  omega

theorem checkView_defers_iff {view : ResourceView} :
    (∃ constraint, authority.checkView request view = .error ⟨.defer, constraint⟩) ↔
      authority.deferPreferred request = true ∧ ¬ view.usable < request.rate.minimum ∧
        ¬ satSub view.usable view.headroom < request.rate.minimum ∧
        (view.availableAfterObligations < request.rate.minimum ∧
            authority.ReleasesInTime request view.resource ∨
          ¬ view.availableAfterObligations < request.rate.minimum ∧
            view.availableForNew < request.rate.minimum ∧ authority.willing request ≠ 0) := by
  rw [← obligationReleasesWithin_eq_true_iff]
  simp only [checkView, rejectIf, bind, Except.bind]
  by_cases husable : view.usable < request.rate.minimum
  · simp [husable, shortfall]
  by_cases hheadroom : satSub view.usable view.headroom < request.rate.minimum
  · simp [husable, hheadroom, shortfall]
  by_cases hobligations : view.availableAfterObligations < request.rate.minimum
  · simp only [husable, hheadroom, hobligations, ↓reduceIte]
    split <;> rename_i hwait
    · simp [shortfall, hwait]
    · simpa [shortfall] using hwait
  by_cases hload : view.availableForNew < request.rate.minimum
  · simp only [husable, hheadroom, hobligations, hload, ↓reduceIte]
    split <;> rename_i hwait
    · simp [shortfall, hwait]
    · simpa [shortfall] using hwait
  · simp [husable, hheadroom, hobligations, hload]

theorem checkView_viewOf_defers_iff {entry : ResourceCapacity} :
    (∃ constraint, authority.checkView request (authority.viewOf ledger resource entry) =
        .error ⟨.defer, constraint⟩) ↔
      authority.Defers ledger request resource entry := by
  have hallowance := authority.toNat_allowance entry resource
  rw [checkView_defers_iff]
  simp only [viewOf, UInt64.lt_iff_toNat_lt, toNat_satSub, hallowance, Nat.not_lt]
  constructor
  · rintro ⟨hpreferred, -, hheadroom, hexpected⟩
    exact ⟨hpreferred, hheadroom, hexpected⟩
  · rintro ⟨hpreferred, hheadroom, hexpected⟩
    exact ⟨hpreferred, hheadroom.trans (Nat.sub_le _ _), hheadroom, hexpected⟩

theorem scanTargets_defers_iff (limit : Limit) (views : List ResourceView)
    (targets : List ResourceId) :
    (∃ constraint, (authority.scanTargets ledger request limit views targets).1 =
        .error ⟨.defer, constraint⟩) ↔
      ∃ earlier resource later entry, targets = earlier ++ resource :: later ∧
        (∀ r ∈ earlier, ∃ free ∈ authority.freeOn ledger r, request.rate.minimum ≤ free) ∧
        authority.knownCapacity resource = some entry ∧
        authority.Defers ledger request resource entry := by
  induction targets generalizing limit views with
  | nil => simp [scanTargets]
  | cons r rest ih =>
    -- the verdict is given at this target, or it has room and is one of the earlier ones
    have hcons : (∃ earlier resource later entry, r :: rest = earlier ++ resource :: later ∧
        (∀ r ∈ earlier, ∃ free ∈ authority.freeOn ledger r, request.rate.minimum ≤ free) ∧
        authority.knownCapacity resource = some entry ∧
        authority.Defers ledger request resource entry) ↔
          (∃ entry, authority.knownCapacity r = some entry ∧
            authority.Defers ledger request r entry) ∨
          ((∃ free ∈ authority.freeOn ledger r, request.rate.minimum ≤ free) ∧
            ∃ earlier resource later entry, rest = earlier ++ resource :: later ∧
              (∀ r ∈ earlier, ∃ free ∈ authority.freeOn ledger r, request.rate.minimum ≤ free) ∧
              authority.knownCapacity resource = some entry ∧
              authority.Defers ledger request resource entry) := by
      constructor
      · rintro ⟨_ | ⟨first, earlier⟩, resource, later, entry, htargets, hearlier, hknown, hdefers⟩
        · obtain ⟨rfl, rfl⟩ := List.cons.inj htargets
          exact Or.inl ⟨entry, hknown, hdefers⟩
        · obtain ⟨rfl, rfl⟩ := List.cons.inj htargets
          obtain ⟨hfirst, hrest⟩ := List.forall_mem_cons.mp hearlier
          exact Or.inr ⟨hfirst, earlier, resource, later, entry, rfl, hrest, hknown, hdefers⟩
      · rintro (⟨entry, hknown, hdefers⟩ |
          ⟨hfirst, earlier, resource, later, entry, rfl, hrest, hknown, hdefers⟩)
        · exact ⟨[], r, rest, entry, rfl, by simp, hknown, hdefers⟩
        · exact ⟨r :: earlier, resource, later, entry, rfl,
            List.forall_mem_cons.mpr ⟨hfirst, hrest⟩, hknown, hdefers⟩
    rw [hcons]
    cases hknown : authority.knownCapacity r with
    | none => simp [scanTargets, hknown, freeOn]
    | some entry =>
      have hroom : (∃ free ∈ authority.freeOn ledger r, request.rate.minimum ≤ free) ↔
          authority.checkView request (authority.viewOf ledger r entry) = .ok () := by
        rw [checkView_viewOf_eq_ok_iff]
        simp [freeOn, hknown]
      have hhere : (∃ constraint, authority.checkView request (authority.viewOf ledger r entry) =
          .error ⟨.defer, constraint⟩) ↔ authority.Defers ledger request r entry :=
        checkView_viewOf_defers_iff
      simp only [scanTargets, hknown, hroom, Option.some.injEq, exists_eq_left', ← hhere]
      cases hcheck : authority.checkView request (authority.viewOf ledger r entry) with
      | error refusal => simp
      | ok _ => simpa using ih _ _

/-- The capacity stage defers a request exactly if the first target without room for its minimum
does. -/
theorem evaluateCapacity_defers_iff (authority : Authority) (ledger : AdmittedLoadLedger)
    (request : AdmissionRequest) (targets : List ResourceId)
    (selectedPath : Option PathAdmissionFact) :
    (∃ constraint, (authority.evaluateCapacity ledger request targets selectedPath).1 =
        .error ⟨.defer, constraint⟩) ↔
      ∃ earlier resource later entry, targets = earlier ++ resource :: later ∧
        (∀ r ∈ earlier, ∃ free ∈ authority.freeOn ledger r, request.rate.minimum ≤ free) ∧
        authority.knownCapacity resource = some entry ∧
        authority.Defers ledger request resource entry := by
  rw [← scanTargets_defers_iff { rate := request.rate.maximum } [] targets]
  unfold evaluateCapacity
  cases hscan : (authority.scanTargets ledger request { rate := request.rate.maximum } []
      targets).1 with
  | error refusal => simp [hscan, Except.bind, Except.map]
  | ok limit =>
    -- the comparison with the path refuses, but never defers
    cases selectedPath with
    | none => simp [hscan, Except.bind, Except.map, capByPath]
    | some fact =>
      by_cases hpath : pathFree ledger fact fact.path < request.rate.minimum
      · simp [hscan, Except.bind, Except.map, capByPath, rejectIf, bind, hpath, shortfall]
      · simp [hscan, Except.bind, Except.map, capByPath, rejectIf, bind, hpath, pure, Except.pure]

end Authority

namespace EngineCore

section Examples

open SmallFabric

/-- Ninety of a hundred are held for good, and five more are released at tick 5. -/
def heldForGood : ReservationSnapshot where
  snapshot := 1
  generation := 1
  epoch := 1
  obligations := [
    { reservation := 1, reservationGeneration := 1, resource := 1, reserved := 90 },
    { reservation := 2, reservationGeneration := 1, resource := 1, reserved := 5, releaseTick := 5,
      inviolable := false }]

/-- An engine under an obligation. -/
def heldCore : EngineCore :=
  (EngineCore.fresh {}).performAll [.publishPolicy { policy with deferHorizonTicks := 10 },
    .publishCapacity (capacity 1 [known 1 1 100]), .publishReservations heldForGood,
    .publishQosCatalog qosCatalog, .publishPriorityCatalog priorityCatalog]

/-- A demand for at least fifty that would rather wait for ten ticks. -/
def patient : AdmissionRequest :=
  { request 1 ⟨50, 50, 50⟩ [1] with contention := .defer, deadlineTicks := 10 }

/-- The request is deferred although fifty never fit: no more than five of the ninety-five that are
held on the resource are released in time, and ten of a hundred are left then. -/
theorem defers_heldCore :
    (∃ constraint, (heldCore.evaluateCapacity heldCore.ledger patient [1] none).1 =
        .error ⟨.defer, constraint⟩) ∧
      heldCore.reservations = some heldForGood ∧ heldCore.tick = 0 ∧
      heldCore.willing patient = 10 ∧
      (heldForGood.obligations.filter fun o =>
          o.resource == 1 && !(!o.inviolable && 0 < o.releaseTick && o.releaseTick ≤ 10)).map
        (·.reserved) = [90] ∧
      (heldCore.knownCapacity 1).map (fun entry => (entry.usable, heldCore.headroomFor entry)) =
        some (100, 0) ∧
      patient.rate.minimum = 50 :=
  ⟨⟨_, rfl⟩, by decide +kernel⟩

end Examples

end EngineCore

end AdmissionFabric
