import AdmissionFabric.Core.Fingerprint
import AdmissionFabric.Model.State

/-!
# The admission request contract

A request names every identity it relies on. `AdmissionRequest.validate` is the structural
contract; `fingerprint` is the digest of every field that decides, by which a retry is told
apart from the reuse of an identity.

The contract admits a minimum rate of zero: `RateBounds.isCoherent` only asks for a nonzero
maximum, although the message of the refusal names `0 < minimum`.

Source: `include/naf/model/request.hpp`, `src/model/request.cpp`,
`include/naf/model/quantity.hpp`.
-/

namespace AdmissionFabric

/-- What a request prefers under contention. -/
inductive ContentionPreference
  | inheritPolicy
  | defer
  | reject
  deriving DecidableEq, Repr

/-- Whether a request takes less than desired. -/
inductive DegradePreference
  | inheritPolicy
  | never
  | downToMinimum
  deriving DecidableEq, Repr

/-- The code of a preference in the fingerprint stream. -/
def ContentionPreference.code : ContentionPreference → UInt8
  | .inheritPolicy => 0
  | .defer => 1
  | .reject => 2

/-- The byte of a preference. -/
def DegradePreference.code : DegradePreference → UInt8
  | .inheritPolicy => 0
  | .never => 1
  | .downToMinimum => 2

/-- Inclusive rate window of a demand. -/
structure RateBounds where
  minimum : Rate
  desired : Rate
  maximum : Rate
  deriving DecidableEq, Repr

/-- The bounds are in order. -/
def RateBounds.isCoherent (rate : RateBounds) : Bool :=
  rate.maximum ≠ 0 ∧ rate.minimum ≤ rate.desired ∧ rate.desired ≤ rate.maximum

/-- A resource the demand needs capacity on, with the generation it was observed at. -/
structure ResourceBinding where
  resource : ResourceId
  generation : Generation
  deriving DecidableEq, Repr

/-- An authorized path the claimant may use. -/
structure PathCandidate where
  path : PathId
  pathAuthorityGeneration : Generation
  deriving DecidableEq, Repr

/-- The authority revisions the claimant observed before asking. -/
structure AuthorityExpectation where
  capacitySnapshot : CapacitySnapshotId := 0
  capacityGeneration : Generation := 0
  reservationSnapshot : ReservationSnapshotId := 0
  reservationGeneration : Generation := 0
  pathAuthorityGeneration : Generation := 0
  policyGeneration : Generation := 0
  qosCatalogGeneration : Generation := 0
  priorityCatalogGeneration : Generation := 0
  deriving DecidableEq, Repr

/-- A reservation that a request refers to. -/
structure ReservationRef where
  reservation : ReservationId
  generation : Generation
  deriving DecidableEq, Repr

/-- A fully specified admission request. -/
structure AdmissionRequest where
  request : AdmissionRequestId
  demand : DemandId
  demandGeneration : Generation
  attempt : AttemptId
  rate : RateBounds
  qos : QoSClassId
  qosGeneration : Generation
  priority : PriorityClassId
  priorityGeneration : Generation
  maximumLatency : Latency := 0
  resourceBindings : List ResourceBinding := []
  pathCandidates : List PathCandidate := []
  requiredPath : PathId := 0
  reservationRefs : List ReservationRef := []
  fairnessGroup : FairnessGroupId := 0
  tenant : TenantId := 0
  preemptible : Bool := false
  requestsObligationPreemption : Bool := false
  allowPathSubstitution : Bool := true
  contention : ContentionPreference := .inheritPolicy
  degradation : DegradePreference := .inheritPolicy
  deadlineTicks : UInt64 := 0
  effectiveTick : UInt64 := 0
  effectiveInterval : Duration := 0
  expected : AuthorityExpectation := {}
  provenance : Provenance := {}
  deriving DecidableEq, Repr

/-! ### The structural contract -/

/-- The loop over path candidates, with the paths already seen. -/
def checkPathCandidates : List PathId → List PathCandidate → Except Status Unit
  | _, [] => .ok ()
  | seen, candidate :: rest => do
    rejectIf (candidate.path = 0) (malformed "path candidate has an unknown path id")
    rejectIf (candidate.path ∈ seen) (malformed "duplicate path candidate")
    checkGeneration candidate.pathAuthorityGeneration "path candidate"
    checkPathCandidates (candidate.path :: seen) rest

/-- The generations of an expectation that the contract inspects. -/
def AuthorityExpectation.generations (expected : AuthorityExpectation) : List Generation :=
  [expected.capacityGeneration, expected.reservationGeneration, expected.pathAuthorityGeneration,
    expected.policyGeneration, expected.qosCatalogGeneration, expected.priorityCatalogGeneration]

/-- The contract of a request. -/
def AdmissionRequest.validate (request : AdmissionRequest) : Except Status Unit := do
  rejectIf (request.request = 0) (malformed "request id is unknown")
  rejectIf (request.demand = 0) (malformed "demand id is unknown")
  rejectIf (request.attempt = 0) (malformed "attempt id is unknown")
  checkGeneration request.demandGeneration "demand"
  checkGeneration request.qosGeneration "qos class"
  checkGeneration request.priorityGeneration "priority class"
  rejectIf (request.qos = 0) (malformed "qos class id is unknown")
  rejectIf (request.priority = 0) (malformed "priority class id is unknown")
  rejectIf (¬ request.rate.isCoherent) (malformed
    "rate bounds are contradictory (require 0 < minimum <= desired <= maximum)")
  rejectIf (request.resourceBindings.length > Limits.maxResourceBindings)
    (oversized "too many resource bindings")
  checkIncreasing ResourceBinding.resource
    (malformed "resource binding has an unknown resource id")
    (malformed "resource bindings are not strictly increasing")
    (fun binding => checkGeneration binding.generation "resource binding")
    none request.resourceBindings
  rejectIf (request.pathCandidates.length > Limits.maxPathCandidates)
    (oversized "too many path candidates")
  checkPathCandidates [] request.pathCandidates
  rejectIf (request.resourceBindings = [] ∧ request.pathCandidates = [])
    (malformed "request names neither resource bindings nor path candidates")
  rejectIf (request.requiredPath ≠ 0 ∧
      request.requiredPath ∉ request.pathCandidates.map PathCandidate.path)
    (malformed "required path is not one of the declared candidates")
  rejectIf (request.requiredPath ≠ 0 ∧ request.allowPathSubstitution ∧
      request.pathCandidates.length > 1)
    (malformed "required path conflicts with path substitution being allowed")
  rejectIf (request.reservationRefs.length > Limits.maxReservationRefs)
    (oversized "too many reservation references")
  checkIncreasing ReservationRef.reservation
    (malformed "reservation reference has an unknown id")
    (malformed "reservation references are not strictly increasing")
    (fun ref => checkGeneration ref.generation "reservation reference")
    none request.reservationRefs
  rejectIf (request.provenance.attempt ≠ 0 ∧ request.provenance.attempt ≠ request.attempt)
    (malformed "provenance attempt does not match the request attempt")
  rejectIf (maxU64 ∈ request.expected.generations)
    (malformed "authority expectation generation is malformed")

theorem AdmissionRequest.identities_of_validate {request : AdmissionRequest}
    (h : request.validate = .ok ()) :
    request.request ≠ 0 ∧ request.demand ≠ 0 ∧ request.attempt ≠ 0 := by
  simp only [validate, check_bind_eq_ok_iff, rejectIf_eq_ok_iff] at h
  exact ⟨h.1, h.2.1, h.2.2.1⟩

theorem AdmissionRequest.rate_of_validate {request : AdmissionRequest}
    (h : request.validate = .ok ()) :
    request.rate.maximum ≠ 0 ∧ request.rate.minimum ≤ request.rate.desired ∧
      request.rate.desired ≤ request.rate.maximum := by
  simp only [validate, check_bind_eq_ok_iff, rejectIf_eq_ok_iff, RateBounds.isCoherent,
    decide_eq_true_eq, not_not] at h
  exact h.2.2.2.2.2.2.2.2.1

theorem AdmissionRequest.requiredPath_mem_of_validate {request : AdmissionRequest}
    (h : request.validate = .ok ()) (hreq : request.requiredPath ≠ 0) :
    request.requiredPath ∈ request.pathCandidates.map PathCandidate.path := by
  simp only [validate, check_bind_eq_ok_iff, rejectIf_eq_ok_iff] at h
  obtain ⟨-, -, -, -, -, -, -, -, -, -, -, -, -, -, hmem, -⟩ := h
  exact not_not.mp fun hn => hmem ⟨hreq, hn⟩

theorem ne_zero_of_checkPathCandidates {seen : List PathId} {candidates : List PathCandidate}
    (h : checkPathCandidates seen candidates = .ok ()) : ∀ c ∈ candidates, c.path ≠ 0 := by
  induction candidates generalizing seen with
  | nil => simp
  | cons c cs ih =>
    simp only [checkPathCandidates, check_bind_eq_ok_iff, rejectIf_eq_ok_iff] at h
    exact List.forall_mem_cons.mpr ⟨h.1, ih h.2.2.2⟩

theorem AdmissionRequest.path_ne_zero_of_validate {request : AdmissionRequest}
    (h : request.validate = .ok ()) : ∀ c ∈ request.pathCandidates, c.path ≠ 0 := by
  simp only [validate, check_bind_eq_ok_iff] at h
  exact ne_zero_of_checkPathCandidates h.2.2.2.2.2.2.2.2.2.2.2.2.1

/-! ### The content fingerprint -/

open Fingerprint in
/-- The byte stream that the fingerprint of a request digests. -/
def AdmissionRequest.fingerprintStream (request : AdmissionRequest) : List UInt8 :=
  separator 0x11 ++ u64 request.request ++ u64 request.demand ++ u64 request.demandGeneration ++
    u64 request.attempt ++
  separator 0x12 ++ u64 request.rate.minimum ++ u64 request.rate.desired ++
    u64 request.rate.maximum ++
  separator 0x13 ++ u64 request.qos ++ u64 request.qosGeneration ++ u64 request.priority ++
    u64 request.priorityGeneration ++ u64 request.maximumLatency ++
  separator 0x14 ++ size request.resourceBindings.length ++
    request.resourceBindings.flatMap (fun b => u64 b.resource ++ u64 b.generation) ++
  separator 0x15 ++ size request.pathCandidates.length ++
    request.pathCandidates.flatMap (fun c => u64 c.path ++ u64 c.pathAuthorityGeneration) ++
  separator 0x16 ++ u64 request.requiredPath ++ size request.reservationRefs.length ++
    request.reservationRefs.flatMap (fun r => u64 r.reservation ++ u64 r.generation) ++
  separator 0x17 ++ u64 request.fairnessGroup ++ u64 request.tenant ++
    boolean request.preemptible ++ boolean request.requestsObligationPreemption ++
    boolean request.allowPathSubstitution ++ [request.contention.code] ++
    [request.degradation.code] ++
  separator 0x18 ++ u64 request.deadlineTicks ++ u64 request.effectiveTick ++
    u64 request.effectiveInterval ++
  separator 0x1A ++ u64 request.expected.capacitySnapshot ++
    u64 request.expected.capacityGeneration ++ u64 request.expected.reservationSnapshot ++
    u64 request.expected.reservationGeneration ++
    u64 request.expected.pathAuthorityGeneration ++ u64 request.expected.policyGeneration ++
    u64 request.expected.qosCatalogGeneration ++
    u64 request.expected.priorityCatalogGeneration ++
  separator 0x19 ++ u64 request.provenance.publisher

/-- The fingerprint of the content of a request. -/
def AdmissionRequest.fingerprint (request : AdmissionRequest) : UInt64 :=
  Fingerprint.ofStream request.fingerprintStream

end AdmissionFabric
