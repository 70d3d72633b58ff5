import AdmissionFabric.Engine.SmallFabric
import AdmissionFabric.Engine.Transactions
import AdmissionFabric.Engine.VerdictSpec

/-!
# The arithmetic of a grant

A fresh admission grants the largest rate that fits everywhere: the requested maximum, what is left
of every targeted resource after headroom, obligations and admitted load, and what is left of the
selected path. The evaluation computes it with saturating subtractions and the ledger adds it with
checked additions; as long as no target was overcommitted before, neither saturates nor overflows,
and no target is overcommitted afterwards.
-/

namespace AdmissionFabric

theorem le_foldr_min_iff {x bound : Nat} {values : List Nat} :
    x ≤ values.foldr min bound ↔ x ≤ bound ∧ ∀ value ∈ values, x ≤ value := by
  induction values with
  | nil => simp
  | cons value rest ih =>
    rw [List.foldr_cons, Nat.le_min, ih, List.forall_mem_cons]
    exact and_left_comm

namespace EngineCore

open SmallFabric

/-! ### What is left -/

/-- The load on a resource, its obligations and its headroom fit its capacity. -/
def Fits (core : EngineCore) (resource : ResourceId) : Prop :=
  ∃ entry, core.knownCapacity resource = some entry ∧
    (core.ledger.admitted resource).toNat + (core.obligationsFor resource).toNat +
      (core.headroomFor entry).toNat ≤ entry.usable.toNat

instance (core : EngineCore) (resource : ResourceId) : Decidable (core.Fits resource) :=
  decidable_of_iff ((core.knownCapacity resource).any (fun entry => decide
    ((core.ledger.admitted resource).toNat + (core.obligationsFor resource).toNat +
      (core.headroomFor entry).toNat ≤ entry.usable.toNat)) = true) <| by
    simp [Fits, Option.any_eq_true]

/-- What is left of a resource for new load. -/
def slack (core : EngineCore) (resource : ResourceId) : Nat :=
  match core.knownCapacity resource with
  | none => 0
  | some entry => entry.usable.toNat - (core.headroomFor entry).toNat -
      (core.obligationsFor resource).toNat - (core.ledger.admitted resource).toNat

/-- What is left of a path. -/
def pathSlack (core : EngineCore) (fact : PathAdmissionFact) : Nat :=
  fact.pathUsableCapacity.toNat - (core.ledger.admittedOnPath fact.path).toNat

/-- The largest rate that a request with a selected path can be granted. -/
def largestGrant (core : EngineCore) (request : AdmissionRequest) (selection : PathSelection) :
    Nat :=
  ((targetsOf request selection.traversal).map core.slack ++
    (core.selectedFact selection).toList.map core.pathSlack).foldr min request.rate.maximum.toNat

/-- The policy, the request and the QoS class all permit a degraded grant. -/
def PermitsDegradation (core : EngineCore) (request : AdmissionRequest) : Prop :=
  (∃ policy ∈ core.policy, policy.allowDegraded = true) ∧ request.degradation ≠ .never ∧
    ∃ fact ∈ core.findQos request.qos, fact.degradationAllowed = true

/-- What a fresh admission grants, and the load it leaves. -/
structure GrantArithmetic (core core' : EngineCore) (request : AdmissionRequest)
    (selection : PathSelection) (decision : AdmissionDecision) : Prop where
  selectedPath_eq : decision.selectedPath = selection.selected
  granted_eq : decision.granted.toNat = core.largestGrant request selection
  minimum_le : request.rate.minimum ≤ decision.granted
  le_maximum : decision.granted ≤ request.rate.maximum
  outcome_eq : decision.outcome =
    if request.rate.desired ≤ decision.granted then .admitted else .admitDegraded
  permits : decision.outcome = .admitDegraded → core.PermitsDegradation request
  admitted_of_mem : ∀ r ∈ targetsOf request selection.traversal,
    (core'.ledger.admitted r).toNat = (core.ledger.admitted r).toNat + decision.granted.toNat
  fits : ∀ r ∈ targetsOf request selection.traversal, core'.Fits r
  admitted_of_notMem : ∀ r ∉ targetsOf request selection.traversal,
    core'.ledger.admitted r = core.ledger.admitted r

/-! ### Fresh admissions -/

section Fresh

variable {outcome : AdmissionOutcome} {ceiling granted : Rate}
    {binding binding' : BindingConstraint} {core core' : EngineCore} {request : AdmissionRequest}
    {claim : ClaimContext} {decision : AdmissionDecision}

theorem toNat_free_eq_slack {resource : ResourceId} {free : Rate}
    (h : core.freeOn core.ledger resource = some free) : free.toNat = core.slack resource := by
  obtain ⟨entry, hknown, rfl⟩ := Option.map_eq_some_iff.mp h
  rw [slack, hknown, toNat_satSub, Authority.allowance, toNat_satSub, toNat_satSub]

theorem toNat_pathFree_eq_pathSlack (fact : PathAdmissionFact) :
    (pathFree core.ledger fact fact.path).toNat = core.pathSlack fact := by
  rw [pathFree, toNat_satSub, pathSlack]

theorem toNat_granted_eq {selection : PathSelection}
    (hcap : (core.evaluateCapacity core.ledger request (targetsOf request selection.traversal)
      (core.selectedFact selection)).1 = .ok (ceiling, binding))
    (hgrant : core.decideGrant request ceiling binding = .ok (outcome, granted, binding')) :
    granted.toNat = core.largestGrant request selection := by
  obtain ⟨hknown, hceiling⟩ := Authority.evaluateCapacity_eq_ok hcap
  have hgranted := (Authority.decideGrant_eq_ok hgrant).1
  -- a rate is below the ceiling exactly if it is below every term of the minimum
  have hle : ∀ x : Rate, x ≤ ceiling ↔ x.toNat ≤ core.largestGrant request selection := by
    intro x
    rw [hceiling, largestGrant, le_foldr_min_iff]
    simp only [UInt64.le_iff_toNat_le, List.forall_mem_append, List.forall_mem_map,
      Option.mem_toList, toNat_pathFree_eq_pathSlack]
    refine and_congr_right fun _ => and_congr_left fun _ => forall₂_congr fun r hr => ?_
    obtain ⟨free, hfree, -⟩ := hknown r hr
    simp only [Option.mem_def] at hfree
    simp only [hfree, Option.mem_def, Option.some.injEq, forall_eq', toNat_free_eq_slack hfree]
  have hbound : core.largestGrant request selection ≤ request.rate.maximum.toNat :=
    (le_foldr_min_iff.mp le_rfl).1
  have hsmall : core.largestGrant request selection < 2 ^ 64 :=
    hbound.trans_lt request.rate.maximum.toNat_lt
  have htoNat : (UInt64.ofNat (core.largestGrant request selection)).toNat =
      core.largestGrant request selection := UInt64.toNat_ofNat_of_lt' hsmall
  apply Nat.le_antisymm
  · exact (hle granted).mp (hgranted ▸ Std.min_le_left)
  · rw [← htoNat, ← UInt64.le_iff_toNat_le, hgranted, Std.le_min_iff]
    exact ⟨(hle _).mpr htoNat.le, by rw [UInt64.le_iff_toNat_le, htoNat]; exact hbound⟩

theorem outcome_of_decideGrant
    (h : core.decideGrant request ceiling binding = .ok (outcome, granted, binding')) :
    outcome = (if request.rate.desired ≤ granted then .admitted else .admitDegraded) ∧
      (outcome = .admitDegraded → core.degradeAllowed request = true) := by
  simp only [Authority.decideGrant, check_bind_eq_ok_iff, rejectIf_eq_ok_iff, UInt64.not_lt] at h
  obtain ⟨-, h⟩ := h
  split at h
  · rename_i hbelow
    simp only [check_bind_eq_ok_iff, rejectIf_eq_ok_iff, not_not, pure, Except.pure,
      Except.ok.injEq, Prod.mk.injEq] at h
    obtain ⟨hallowed, rfl, rfl, -⟩ := h
    exact ⟨(if_neg (UInt64.not_le.mpr hbelow)).symm, fun _ => hallowed⟩
  · rename_i hdesired
    obtain ⟨rfl, rfl, -⟩ := h
    exact ⟨(if_pos (UInt64.not_lt.mp hdesired)).symm, fun h => by cases h⟩

theorem permitsDegradation_of_allowed (hexpect : core.checkExpectations request = .ok ())
    (hallowed : core.degradeAllowed request = true) : core.PermitsDegradation request := by
  simp only [Authority.checkExpectations, check_bind_eq_ok_iff] at hexpect
  have hqos := hexpect.2.2.2.2.2.2.2.2.1
  simp only [Authority.degradeAllowed, Bool.and_eq_true, bne_iff_ne] at hallowed
  obtain ⟨⟨hpolicy, hrequest⟩, hclass⟩ := hallowed
  refine ⟨?_, hrequest, ?_⟩
  · cases hp : core.policy with
    | none => simp [hp] at hpolicy
    | some policy => exact ⟨policy, rfl, by simpa [hp] using hpolicy⟩
  · cases hq : core.findQos request.qos with
    | none => simp [Authority.checkQosClass, hq] at hqos
    | some fact => exact ⟨fact, rfl, by simpa [hq] using hclass⟩

theorem toAuthority_admitLocked_of_grant {grant : Grant}
    (hverdict : core.verdict request claim = .grant grant) :
    (core.admitLocked request claim).2.toAuthority = core.toAuthority := by
  rw [admitLocked_of_grant hverdict, answer_snd]
  generalize core.admission request claim grant = decision,
    (grant.targets.map fun resource => (resource, grant.granted)) = amounts
  generalize hcall : core.consumeIdentity.finishAdmission decision request amounts = outcome
  cases finishAdmission_effect hcall with
  | unprepared | unreserved | uncommitted => rfl
  | committed =>
    rw [compactIfNeededLocked_snd]
    rfl

/-- A fresh admission grants the largest rate that fits everywhere, and leaves it fitting, if its
targets fitted before. -/
theorem grantArithmetic_of_fresh {selection : PathSelection}
    (h : core.admitLocked request claim = (.ok decision, core'))
    (hadmitting : decision.outcome.isAdmitting = true)
    (hfresh : decision.idempotentReplay = false)
    (hselect : core.selectPath core.ledger request = .ok selection)
    (hfits : ∀ r ∈ targetsOf request selection.traversal, core.Fits r) :
    GrantArithmetic core core' request selection decision := by
  obtain ⟨grant, hverdict, rfl⟩ := admitLocked_fresh h hadmitting hfresh
  obtain ⟨-, -, -, hevaluate⟩ := verdict_eq_grant hverdict
  obtain ⟨selection', ceiling, binding, hresolve, hcap, hgrant, hpath, -⟩ :=
    Authority.evaluate_eq_ok hevaluate
  obtain ⟨-, hexpect, -, hselect', htargets, -⟩ := Authority.resolve_eq_ok_iff.mp hresolve
  obtain rfl : selection = selection' := Except.ok.inj (hselect.symm.trans hselect')
  rw [htargets] at hcap
  have hgranted := toNat_granted_eq hcap hgrant
  obtain ⟨hmin, hminimum, -⟩ := Authority.decideGrant_eq_ok hgrant
  obtain ⟨houtcome, hdegraded⟩ := outcome_of_decideGrant hgrant
  have hauthority : core'.toAuthority = core.toAuthority := by
    rw [← toAuthority_admitLocked_of_grant hverdict, h]
  have hload := AdmittedLoadLedger.toNat_admitted_of_reserve
    (nodup_targetsOf request selection.traversal) (htargets ▸ reserve_of_admitLocked hverdict h)
  have hadmitted : ∀ r ∈ targetsOf request selection.traversal,
      (core'.ledger.admitted r).toNat = (core.ledger.admitted r).toNat + grant.granted.toNat := by
    intro r hr
    rw [hload, if_pos hr]
  have hmaximum : grant.granted ≤ request.rate.maximum := by
    rw [hmin]
    exact Std.min_le_right
  refine ⟨hpath, hgranted, hminimum, hmaximum, houtcome,
    fun h => permitsDegradation_of_allowed hexpect (hdegraded h), hadmitted, fun r hr => ?_,
    fun r hr => ?_⟩
  · obtain ⟨entry, hknown, hroom⟩ := hfits r hr
    refine ⟨entry, by rw [hauthority]; exact hknown, ?_⟩
    rw [hauthority, hadmitted r hr]
    have hslack : grant.granted.toNat ≤ core.slack r := by
      rw [hgranted]
      exact (le_foldr_min_iff.mp (Nat.le_refl _)).2 _
        (List.mem_append_left _ (List.mem_map_of_mem hr))
    rw [slack, hknown] at hslack
    simp only at hslack
    omega
  · apply UInt64.toNat_inj.mp
    rw [hload, if_neg hr, Nat.add_zero]

end Fresh

/-- An engine with reservations on two resources, one half used, and a path over the other. -/
def halfUsed : EngineCore :=
  (EngineCore.fresh {}).performAll [.publishPolicy policy,
    .publishCapacity (capacity 1 [known 1 1 100, known 2 1 100]),
    .publishReservations (reservedOn 1 1), .publishQosCatalog qosCatalog,
    .publishPriorityCatalog priorityCatalog, .publishPaths (pathThrough [2]),
    .admitRequest (request 1 ⟨1, 50, 50⟩ [1]) {}]

/-- A request for the half used resource and the path that may be degraded. -/
def bothResources : AdmissionRequest :=
  { boundRequest 2 60 with
    rate := ⟨1, 60, 80⟩, resourceBindings := [⟨1, 1⟩], reservationRefs := [⟨3, 1⟩] }

/-- The path over the second resource. -/
def secondResource : PathSelection where
  selected := 7
  selectedGeneration := 1
  traversal := [2]
  pathSelected := true

theorem grantArithmetic_bothResources : ∃ decision,
    GrantArithmetic halfUsed (halfUsed.admitLocked bothResources {}).2 bothResources secondResource
        decision ∧
      decision.outcome = .admitDegraded ∧ decision.granted = 40 := by
  have hgrants : halfUsed.grantsFresh bothResources {} = true := by decide +kernel
  obtain ⟨decision, core', hanswer, hadmitting, hfresh⟩ := grantsFresh_eq_true_iff.mp hgrants
  have hfits : (targetsOf bothResources [2]).all (fun r => decide (halfUsed.Fits r)) = true := by
    decide +kernel
  have hselect : halfUsed.selectPath halfUsed.ledger bothResources = .ok secondResource := by
    decide +kernel
  have hgrant := grantArithmetic_of_fresh hanswer hadmitting hfresh hselect
    fun r hr => of_decide_eq_true (List.all_eq_true.mp hfits r hr)
  have hrate : halfUsed.largestGrant bothResources secondResource = 40 := by decide +kernel
  have hgranted : decision.granted = 40 :=
    UInt64.toNat_inj.mp (hgrant.granted_eq.trans hrate)
  refine ⟨decision, by rw [hanswer]; exact hgrant, ?_, hgranted⟩
  rw [hgrant.outcome_eq, hgranted]
  decide

end EngineCore

end AdmissionFabric
