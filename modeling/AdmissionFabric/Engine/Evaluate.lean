import AdmissionFabric.Engine.Core

/-!
# Evaluation of a request

The stages of the admission evaluation, in the order of the source: fencing, readiness, authority
expectations, policy, path selection and capacity arithmetic. Every stage only reads the state.
A stage that refuses returns the outcome and the constraint that explains it.

Path selection has a fall-through: when no candidate is usable and at least one failed for lack
of capacity, it returns no path and reports that it was blocked by capacity, and leaves the
verdict to the capacity stage.

Source: `src/engine/admission.cpp`.
-/

namespace AdmissionFabric

/-- Why an evaluation stage refused a request. -/
structure Refusal where
  outcome : AdmissionOutcome
  constraint : BindingConstraint
  deriving DecidableEq, Repr

/-! ### Caller fencing -/

namespace EngineCore

/-- The refusal of a fenced claim. -/
def fenceRefusal (core : EngineCore) (claim : ClaimContext) (detail : String) : Refusal where
  outcome := .fencedClaimant
  constraint := { constraintOf .fence "claim" claim.session detail with
    observed := claim.epoch
    authoritative := core.epoch }

/-- Whether a claim matches the live session it names. -/
def sessionMatches (core : EngineCore) (claim : ClaimContext) : Except Refusal Unit :=
  match core.sessions[claim.session]? with
  | none => .error (core.fenceRefusal claim "claim session is not live in this incarnation")
  | some session =>
    rejectIf (session.publisher ≠ claim.publisher ∨ session.boot ≠ claim.boot)
      (core.fenceRefusal claim "claim identity does not match the registered session")

/-- A claim has to be of this epoch, incarnation and session. -/
def checkFence (core : EngineCore) (claim : ClaimContext) : Except Refusal Unit :=
  if claim.origin = .inProcess ∧ core.config.acceptInProcessClaims then do
    rejectIf (claim.epoch ≠ 0 ∧ claim.epoch ≠ core.epoch)
      (core.fenceRefusal claim "in-process claim epoch does not match the fabric epoch")
    rejectIf (claim.incarnation ≠ 0 ∧ claim.incarnation ≠ core.incarnation)
      (core.fenceRefusal claim
        "in-process claim incarnation does not match the coordinator incarnation")
  else do
    rejectIf (claim.epoch = 0) (core.fenceRefusal claim "claim carries no fabric epoch")
    rejectIf (claim.epoch < core.epoch)
      (core.fenceRefusal claim "claim epoch is older than the current fabric epoch")
    rejectIf (claim.epoch > core.epoch) {
      outcome := .conflictingInput
      constraint := { constraintOf .identityConflict "claim_epoch" claim.epoch.toNat
          "claim epoch is ahead of the current fabric epoch" with
        observed := claim.epoch
        authoritative := core.epoch } }
    rejectIf (claim.incarnation ≠ core.incarnation)
      (core.fenceRefusal claim "claim targets a previous coordinator incarnation")
    rejectIf (claim.session = 0) (core.fenceRefusal claim "claim carries no session nonce")
    core.sessionMatches claim

end EngineCore

namespace Authority

/-! ### Readiness -/

/-- Everything has to be published. -/
def checkReadiness (authority : Authority) : Except Refusal Unit :=
  match authority.readiness with
  | .awaitingPolicy => .error ⟨.rejectPolicy, constraintOf .policy "policy" 0
      "no admission policy has been published"⟩
  | .awaitingCapacity => .error ⟨.staleInput, constraintOf .unknownEvidence "capacity_snapshot" 0
      "capacity authority has published nothing; UNKNOWN capacity cannot authorize"⟩
  | .awaitingReservations => .error ⟨.staleInput,
      constraintOf .unknownEvidence "reservation_snapshot" 0
        "protected obligations are UNKNOWN and cannot be proven preserved"⟩
  | .awaitingCatalogs => .error ⟨.staleInput, constraintOf .unknownEvidence "catalogs" 0
      "qos or priority catalog is UNKNOWN"⟩
  | .awaitingPaths => .error ⟨.rejectPath, constraintOf .path "path_catalog" 0
      "policy requires an authorized path binding but no path catalog is published"⟩
  | .waitingForReconciliation => .error ⟨.staleInput,
      constraintOf .unknownEvidence "reconciliation" 0
        "recovered admitted load has not been reconciled against republished capacity"⟩
  | .ready => .ok ()

/-! ### Authority expectations -/

/-- A refusal as stale. -/
def stale (subject : String) (id : UInt64) (observed authoritative : Generation)
    (detail : String) : Refusal where
  outcome := .staleInput
  constraint := { constraintOf .staleGeneration subject id.toNat detail with
    observed, authoritative }

/-- A refusal for lack of evidence. -/
def unknown (subject : String) (id : UInt64) (detail : String) : Refusal where
  outcome := .staleInput
  constraint := constraintOf .unknownEvidence subject id.toNat detail

/-- A stated generation has to be the published one. -/
def requireGeneration (observed authoritative : Generation) (subject : String) :
    Except Refusal Unit := do
  rejectIf (observed = 0)
    (unknown subject 0 ("claimant did not state the " ++ subject ++ " it observed"))
  rejectIf (observed ≠ authoritative)
    (stale subject 0 observed authoritative
      ("claimant relied on a " ++ subject ++ " that is no longer current"))

/-- The stated capacity snapshot has to be current. -/
def checkCapacityExpectation (authority : Authority) (expected : AuthorityExpectation) :
    Except Refusal Unit :=
  match authority.capacity with
  | none => .error (unknown "capacity_snapshot" 0 "capacity authority has published nothing")
  | some capacity => do
    rejectIf (expected.capacityGeneration = 0)
      (unknown "capacity_generation" 0 "claimant did not state the capacity generation")
    rejectIf (expected.capacitySnapshot = 0)
      (unknown "capacity_snapshot" 0 "claimant did not state the capacity snapshot identity")
    rejectIf (expected.capacitySnapshot ≠ capacity.snapshot)
      (stale "capacity_snapshot" expected.capacitySnapshot expected.capacitySnapshot
        capacity.snapshot "claimant relied on a superseded capacity snapshot identity")
    requireGeneration expected.capacityGeneration capacity.generation "capacity_generation"

/-- The stated reservations have to be current. -/
def checkReservationExpectation (authority : Authority) (expected : AuthorityExpectation) :
    Except Refusal Unit :=
  match authority.reservations with
  | none => .error (unknown "reservation_snapshot" 0 "protected obligations are UNKNOWN")
  | some reservations => do
    rejectIf (expected.reservationGeneration = 0)
      (unknown "reservation_generation" 0 "claimant did not state the reservation generation")
    rejectIf (expected.reservationSnapshot = 0)
      (unknown "reservation_snapshot" 0 "claimant did not state the reservation snapshot identity")
    rejectIf (expected.reservationSnapshot ≠ reservations.snapshot)
      (stale "reservation_snapshot" expected.reservationSnapshot expected.reservationSnapshot
        reservations.snapshot "claimant relied on a superseded reservation snapshot identity")
    requireGeneration expected.reservationGeneration reservations.generation
      "reservation_generation"

/-- Whether the current policy requires a path binding. -/
def pathRequired (authority : Authority) : Bool :=
  (authority.policy.map (·.requirePathBinding)).getD false

/-- The stated path authority has to be current. -/
def checkPathExpectation (authority : Authority) (request : AdmissionRequest) :
    Except Refusal Unit :=
  if authority.pathRequired ∨ request.pathCandidates ≠ [] then
    match authority.paths with
    | none => .error (unknown "path_authority" 0 "no path catalog has been published")
    | some paths => requireGeneration request.expected.pathAuthorityGeneration
        paths.pathAuthorityGeneration "path_authority_generation"
  else .ok ()

/-- A binding has to state the current generation. -/
def checkBinding (authority : Authority) (binding : ResourceBinding) : Except Refusal Unit :=
  match authority.findCapacity binding.resource with
  | none => .error (unknown "resource" binding.resource
      "claimant named a resource the capacity authority has not published")
  | some entry => do
    rejectIf (entry.evidence ≠ .known) (unknown "resource" binding.resource
      "capacity for this resource is UNKNOWN and cannot authorize admission")
    rejectIf (binding.generation ≠ entry.generation)
      (stale "resource" binding.resource binding.generation entry.generation
        "claimant relied on a superseded resource capacity generation")

/-- A candidate has to state the current generation. -/
def checkCandidate (authority : Authority) (candidate : PathCandidate) : Except Refusal Unit :=
  match authority.findPath candidate.path with
  | none => .error (unknown "path" candidate.path
      "claimant named a path the path authority has not published")
  | some fact =>
    rejectIf (candidate.pathAuthorityGeneration ≠ fact.pathAuthorityGeneration)
      (stale "path" candidate.path candidate.pathAuthorityGeneration fact.pathAuthorityGeneration
        "claimant relied on a superseded path authority generation")

/-- The QoS class has to be current. -/
def checkQosClass (authority : Authority) (request : AdmissionRequest) : Except Refusal Unit :=
  match authority.findQos request.qos with
  | none => .error (unknown "qos_class" request.qos "qos class is not published by the catalog")
  | some fact =>
    rejectIf (request.qosGeneration ≠ fact.generation)
      (stale "qos_class" request.qos request.qosGeneration fact.generation
        "claimant relied on a superseded qos class generation")

/-- The priority has to be current. -/
def checkPriorityClass (authority : Authority) (request : AdmissionRequest) :
    Except Refusal Unit :=
  match authority.findPriority request.priority with
  | none => .error (unknown "priority_class" request.priority
      "priority class is not published by the catalog")
  | some fact =>
    rejectIf (request.priorityGeneration ≠ fact.generation)
      (stale "priority_class" request.priority request.priorityGeneration fact.generation
        "claimant relied on a superseded priority class generation")

/-- A reference is compared with the first obligation of its reservation. -/
def checkReservationRef (authority : Authority) (ref : ReservationRef) : Except Refusal Unit :=
  match (obligationsOf authority.reservations).find? (·.reservation = ref.reservation) with
  | none => .error (unknown "reservation" ref.reservation
      "claimant referenced a reservation the reservation authority has not published")
  | some obligation =>
    rejectIf (obligation.reservationGeneration ≠ ref.generation)
      (stale "reservation" ref.reservation ref.generation obligation.reservationGeneration
        "claimant relied on a superseded reservation generation")

/-- Everything that a request states has to be current. -/
def checkExpectations (authority : Authority) (request : AdmissionRequest) :
    Except Refusal Unit := do
  let expected := request.expected
  authority.checkCapacityExpectation expected
  authority.checkReservationExpectation expected
  requireGeneration expected.policyGeneration ((authority.policy.map (·.generation)).getD 0)
    "policy_generation"
  requireGeneration expected.qosCatalogGeneration ((authority.qos.map (·.generation)).getD 0)
    "qos_catalog_generation"
  requireGeneration expected.priorityCatalogGeneration
    ((authority.priorities.map (·.generation)).getD 0) "priority_catalog_generation"
  authority.checkPathExpectation request
  request.resourceBindings.forM authority.checkBinding
  request.pathCandidates.forM authority.checkCandidate
  authority.checkQosClass request
  authority.checkPriorityClass request
  request.reservationRefs.forM authority.checkReservationRef

/-! ### Policy, QoS and priority -/

/-- The rate and latency window of the requested QoS class. -/
def checkQosWindow (authority : Authority) (request : AdmissionRequest) : Except Refusal Unit :=
  match authority.findQos request.qos with
  | none => .error ⟨.rejectQoS, constraintOf .unknownEvidence "qos_class" request.qos.toNat
      "qos class is not published"⟩
  | some fact => do
    rejectIf (request.rate.minimum < fact.minimumRate) {
      outcome := .rejectQoS
      constraint := { constraintOf .qosClass "qos_minimum" request.qos.toNat
          "demand minimum is below the floor of the requested qos class" with
        required := fact.minimumRate
        available := request.rate.minimum } }
    rejectIf (request.rate.maximum > fact.maximumRate) {
      outcome := .rejectQoS
      constraint := { constraintOf .qosClass "qos_maximum" request.qos.toNat
          "demand maximum exceeds the ceiling of the requested qos class" with
        required := request.rate.maximum
        available := fact.maximumRate } }
    rejectIf (request.maximumLatency > fact.maximumLatency) {
      outcome := .rejectQoS
      constraint := { constraintOf .qosClass "qos_latency" request.qos.toNat
          "demand latency budget exceeds what the qos class guarantees" with
        required := request.maximumLatency
        available := fact.maximumLatency } }

/-- The policy has to permit the request. -/
def checkPolicy (authority : Authority) (request : AdmissionRequest) : Except Refusal Unit :=
  match authority.policy with
  | none => .error ⟨.rejectPolicy, constraintOf .policy "policy" 0 "no policy is published"⟩
  | some p => do
    rejectIf (p.allowedQos ≠ [] ∧ request.qos ∉ p.allowedQos)
      ⟨.rejectQoS, constraintOf .qosClass "qos_class" request.qos.toNat
        "policy does not permit this qos class"⟩
    rejectIf (p.allowedPriorities ≠ [] ∧ request.priority ∉ p.allowedPriorities)
      ⟨.rejectPolicy, constraintOf .priorityClass "priority_class" request.priority.toNat
        "policy does not permit this priority class"⟩
    rejectIf (p.requireReservationReference ∧ request.reservationRefs = [])
      ⟨.rejectPolicy, constraintOf .policy "reservation_reference" 0
        "policy requires the demand to reference an existing reservation"⟩
    rejectIf (request.preemptible ∧ !p.allowPreemptibleAdmission)
      ⟨.rejectPolicy, constraintOf .policy "preemptible" 0
        "policy does not permit preemptible admission"⟩
    rejectIf (request.requestsObligationPreemption = true)
      ⟨.rejectObligation, constraintOf .obligation "obligation_preemption" 0
        ("admission does not own reservation lifecycle and never preempts a " ++
          "protected obligation")⟩
    authority.checkQosWindow request

/-! ### Path selection -/

end Authority

/-- What the path stage finds about one candidate. -/
inductive CandidateVerdict
  | unknownEvidence (constraint : BindingConstraint)
  | pathFailure (constraint : BindingConstraint)
  | capacityFailure (constraint : BindingConstraint) (traversal : List ResourceId)
  | usable (fact : PathAdmissionFact)
  deriving DecidableEq, Repr

/-- The result of the path stage. Without a selected path the identity and the generation stay
unknown, and the traversal is that of the first candidate that failed for lack of capacity. -/
structure PathSelection where
  selected : PathId := 0
  selectedGeneration : Generation := 0
  traversal : List ResourceId := []
  pathSelected : Bool := false
  capacityBlocked : Bool := false
  constraint : BindingConstraint := {}
  deriving DecidableEq, Repr

/-- The first failure of each kind that the search has met. -/
structure PathSearch where
  unknownEvidence : Option BindingConstraint := none
  capacityFailure : Option (BindingConstraint × List ResourceId) := none
  pathFailure : Option BindingConstraint := none
  deriving DecidableEq, Repr

/-- What a path can still carry. -/
def pathFree (ledger : AdmittedLoadLedger) (fact : PathAdmissionFact) (path : PathId) : Rate :=
  satSub fact.pathUsableCapacity (ledger.admittedOnPath path)

namespace Authority

/-- Whether the allowance of a resource is below a minimum. The existing admitted load is not
considered here. -/
def isShort (authority : Authority) (minimum : Rate) (resource : ResourceId) : Bool :=
  match authority.findCapacity resource with
  | none => false
  | some entry => authority.allowance entry resource < minimum

/-- The checks of one candidate whose path is up and whose resources are all known. -/
def judgeUp (authority : Authority) (ledger : AdmittedLoadLedger) (request : AdmissionRequest)
    (candidate : PathCandidate) (fact : PathAdmissionFact) : CandidateVerdict :=
  let free := pathFree ledger fact candidate.path
  if fact.pathLatency > request.maximumLatency then
    .pathFailure { constraintOf .path "path" candidate.path.toNat
        "path latency exceeds the demand budget" with
      required := request.maximumLatency
      available := fact.pathLatency }
  else if free < request.rate.minimum then
    .capacityFailure { constraintOf .capacity "path" candidate.path.toNat
        "authorized path capacity is exhausted below the demand minimum" with
      required := request.rate.minimum
      available := free } fact.resources
  else if fact.resources.any (authority.isShort request.rate.minimum) then
    .capacityFailure { constraintOf .capacity "path" candidate.path.toNat
        "a resource traversed by this path cannot serve the demand minimum" with
      required := request.rate.minimum } fact.resources
  else .usable fact

/-- The body of the loop over the permitted candidates. -/
def judgeCandidate (authority : Authority) (ledger : AdmittedLoadLedger)
    (request : AdmissionRequest) (candidate : PathCandidate) : CandidateVerdict :=
  match authority.findPath candidate.path with
  | none => .pathFailure (constraintOf .path "path" candidate.path.toNat
      "path is not published by the path authority")
  | some fact =>
    if fact.state = .unknown then
      .unknownEvidence (constraintOf .unknownEvidence "path" candidate.path.toNat
        "path state is UNKNOWN and cannot authorize admission")
    else if fact.state ≠ .up then
      .pathFailure (constraintOf .path "path" candidate.path.toNat "path is not up")
    else match fact.resources.find? fun r => (authority.knownCapacity r).isNone with
      | some resource => .unknownEvidence (constraintOf .unknownEvidence "resource"
          resource.toNat "capacity on the traversed resource is UNKNOWN")
      | none => authority.judgeUp ledger request candidate fact

/-- What the search reports when no candidate is usable. -/
def concludeSearch (search : PathSearch) : Except Refusal PathSelection :=
  match search.unknownEvidence, search.capacityFailure with
  | some constraint, _ => .error ⟨.staleInput, constraint⟩
  -- the capacity stage is left to give the verdict
  | none, some (constraint, traversal) => .ok { traversal, capacityBlocked := true, constraint }
  | none, none => .error ⟨.rejectPath, search.pathFailure.getD
      (constraintOf .path "path" 0 "no authorized path is usable")⟩

/-- Try candidates in order. -/
def searchPaths (authority : Authority) (ledger : AdmittedLoadLedger)
    (request : AdmissionRequest) : PathSearch → List PathCandidate → Except Refusal PathSelection
  | search, [] => concludeSearch search
  | search, candidate :: rest =>
    match authority.judgeCandidate ledger request candidate with
    | .usable fact => .ok {
        selected := candidate.path
        selectedGeneration := candidate.pathAuthorityGeneration
        traversal := fact.resources
        pathSelected := true }
    | .unknownEvidence constraint => authority.searchPaths ledger request
        { search with unknownEvidence := search.unknownEvidence <|> some constraint } rest
    | .capacityFailure constraint traversal => authority.searchPaths ledger request
        { search with
          capacityFailure := search.capacityFailure <|> some (constraint, traversal) } rest
    | .pathFailure constraint => authority.searchPaths ledger request
        { search with pathFailure := search.pathFailure <|> some constraint } rest

/-- The policy and the request permit another path. -/
def substitutionAllowed (authority : Authority) (request : AdmissionRequest) : Bool :=
  request.allowPathSubstitution && (authority.policy.map (·.allowPathSubstitution)).getD true

/-- The candidates the demand lets the engine try, in order. -/
def permittedCandidates (authority : Authority) (request : AdmissionRequest) :
    List PathCandidate :=
  if request.requiredPath ≠ 0 then
    (request.pathCandidates.find? (·.path = request.requiredPath)).toList
  else if authority.substitutionAllowed request then request.pathCandidates
  else request.pathCandidates.take 1

/-- The path that serves a request. -/
def selectPath (authority : Authority) (ledger : AdmittedLoadLedger)
    (request : AdmissionRequest) : Except Refusal PathSelection :=
  if request.pathCandidates = [] then
    if authority.pathRequired then
      .error ⟨.rejectPolicy, constraintOf .policy "path_binding" 0
        "policy requires an authorized path binding and none was declared"⟩
    else .ok {}
  else authority.searchPaths ledger request {} (authority.permittedCandidates request)

end Authority

/-! ### Capacity, headroom and obligation arithmetic -/

/-- What caps the grant so far. -/
structure Limit where
  rate : Rate
  kind : BindingConstraintKind := .capacity
  subject : String := "grant"
  subjectId : Nat := 0
  deriving DecidableEq, Repr

/-- Lower the limit to a rate that is smaller. -/
def Limit.cap (limit : Limit) (rate : Rate) (kind : BindingConstraintKind) (subject : String)
    (subjectId : Nat) : Limit :=
  if rate < limit.rate then { rate, kind, subject, subjectId } else limit

/-- The refusal of a resource or path that leaves less than the demand minimum. -/
def shortfall (outcome : AdmissionOutcome) (kind : BindingConstraintKind) (subject : String)
    (id : UInt64) (minimum available : Rate) (detail : String) : Refusal where
  outcome := outcome
  constraint := { constraintOf kind subject id.toNat detail with
    required := minimum
    available := available }

namespace Authority

/-- The request prefers to wait, or inherits it from the policy. -/
def deferPreferred (authority : Authority) (request : AdmissionRequest) : Bool :=
  request.contention = .defer ∨ (request.contention = .inheritPolicy ∧
    (authority.policy.map (·.onContention)) = some .defer)

/-- How long the claimant and the policy are willing to wait. -/
def willing (authority : Authority) (request : AdmissionRequest) : UInt64 :=
  match authority.policy with
  | some policy => min request.deadlineTicks policy.deferHorizonTicks
  | none => 0

/-- What a decision reports of a resource. -/
def viewOf (authority : Authority) (ledger : AdmittedLoadLedger) (resource : ResourceId)
    (entry : ResourceCapacity) : ResourceView where
  resource := resource
  generation := entry.generation
  usable := entry.usable
  headroom := authority.headroomFor entry
  obligations := authority.obligationsFor resource
  admitted := ledger.admitted resource
  availableAfterObligations := authority.allowance entry resource
  availableForNew := satSub (authority.allowance entry resource) (ledger.admitted resource)

/-- The comparisons of one resource with the demand minimum. -/
def checkView (authority : Authority) (request : AdmissionRequest) (view : ResourceView) :
    Except Refusal Unit := do
  let minimum := request.rate.minimum
  let afterHeadroom := satSub view.usable view.headroom
  let defers := authority.deferPreferred request
  let willing := authority.willing request
  rejectIf (view.usable < minimum)
    (shortfall .rejectCapacity .capacity "resource" view.resource minimum view.usable
      "authoritative usable capacity is below the demand minimum")
  rejectIf (afterHeadroom < minimum)
    (shortfall .rejectCapacity .headroom "resource" view.resource minimum afterHeadroom
      "protected headroom leaves less than the demand minimum")
  rejectIf (view.availableAfterObligations < minimum)
    (if defers ∧ authority.obligationReleasesWithin view.resource
        (satAdd authority.tick willing) then
      shortfall .defer .obligation "resource" view.resource minimum
        view.availableAfterObligations
        "a protected obligation releases within the deferral horizon"
    else
      shortfall .rejectObligation .obligation "resource" view.resource minimum
        view.availableAfterObligations
        "protected obligations hold capacity below the demand minimum")
  rejectIf (view.availableForNew < minimum)
    (if defers ∧ willing ≠ 0 then
      shortfall .defer .admittedLoad "resource" view.resource minimum view.availableForNew
        "existing admitted load is expected to drain within the deferral horizon"
    else
      shortfall .rejectCapacity .admittedLoad "resource" view.resource minimum
        view.availableForNew "existing admitted load leaves less than the demand minimum")

/-- The loop over the targets, with the views it has pushed. A resource without known capacity
refuses before its view is pushed; every other refusal keeps the view. -/
def scanTargets (authority : Authority) (ledger : AdmittedLoadLedger)
    (request : AdmissionRequest) : Limit → List ResourceView → List ResourceId →
      Except Refusal Limit × List ResourceView
  | limit, views, [] => (.ok limit, views)
  | limit, views, resource :: rest =>
    match authority.knownCapacity resource with
    | none => (.error ⟨.staleInput, constraintOf .unknownEvidence "resource" resource.toNat
        "capacity for this resource is UNKNOWN and cannot authorize admission"⟩, views)
    | some entry =>
      let view := authority.viewOf ledger resource entry
      match authority.checkView request view with
      | .error refusal => (.error refusal, views ++ [view])
      | .ok () => authority.scanTargets ledger request
          (limit.cap view.availableForNew .admittedLoad "resource" resource.toNat)
          (views ++ [view]) rest

/-- The comparison with the free capacity of the selected path, if there is one. -/
def capByPath (ledger : AdmittedLoadLedger) (request : AdmissionRequest)
    (selectedPath : Option PathAdmissionFact) (limit : Limit) : Except Refusal Limit :=
  match selectedPath with
  | none => .ok limit
  | some fact => do
    let free := pathFree ledger fact fact.path
    rejectIf (free < request.rate.minimum)
      (shortfall .rejectCapacity .capacity "path" fact.path request.rate.minimum free
        "authorized path capacity is exhausted below the demand minimum")
    return limit.cap free .capacity "path" fact.path.toNat

/-- The limit together with the constraint that explains it. -/
def bindingOf (request : AdmissionRequest) (limit : Limit) : Rate × BindingConstraint :=
  (limit.rate,
    { constraintOf limit.kind limit.subject limit.subjectId
        (if limit.rate < request.rate.maximum then
          "the granted rate is capped by this binding constraint"
        else "capacity is sufficient for the requested maximum") with
      required := request.rate.maximum
      available := limit.rate })

/-- The ceiling of the grant and the constraint that binds it, or a refusal; with the views of
the resources that were looked at. -/
def evaluateCapacity (authority : Authority) (ledger : AdmittedLoadLedger)
    (request : AdmissionRequest) (targets : List ResourceId)
    (selectedPath : Option PathAdmissionFact) :
    Except Refusal (Rate × BindingConstraint) × List ResourceView :=
  let scan := authority.scanTargets ledger request { rate := request.rate.maximum } [] targets
  ((scan.1.bind (capByPath ledger request selectedPath)).map (bindingOf request), scan.2)

end Authority

end AdmissionFabric
