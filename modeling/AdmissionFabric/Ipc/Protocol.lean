import AdmissionFabric.Engine.FabricStatus

/-!
# Wire protocol payloads

The messages that claimants and the coordinator exchange, their encodings and the decoders that the
two sides run. A decoder refuses a truncated payload, an enumeration code out of range, a text or a
list longer than its bound, and trailing bytes. The names follow those of the durable records.

The encoder of an explanation gives up at the first text that is too long, and its callers ignore
that it did. The decoder of an explanation adds the constraints one by one to an empty one, and
stands for the truncation marker by adding one more empty constraint; the number of omitted
constraints and the truncation marker of an authority vector are read and dropped.

A `String` stands for a byte string here, one character below `256` for a byte.

Source: `include/naf/ipc/protocol.hpp`, `src/ipc/protocol.cpp`.
-/

namespace AdmissionFabric

open ByteDecoder LittleEndian

/-! ### Messages -/

/-- The protocol version is the format revision. -/
def protocolVersion : UInt16 := formatRevision

/-- The first message of a client. -/
structure HelloMessage where
  protocolVersion : UInt16 := 0
  publisher : PublisherId := 0
  boot : BootId := 0
  maxFrame : UInt32 := Limits.maxFrameBytes
  clientNonce : UInt64 := 0
  deriving DecidableEq, Repr

/-- The answer to it. -/
structure WelcomeMessage where
  accepted : Bool := false
  epoch : FabricEpoch := 0
  incarnation : CoordinatorIncarnation := 0
  session : SessionNonce := 0
  reason : String := ""
  deriving DecidableEq, Repr

/-- A request for admission. -/
structure AdmitMessage where
  claim : ClaimContext
  request : AdmissionRequest
  deriving DecidableEq, Repr

/-- A request for revalidation. -/
structure RevalidateMessage where
  claim : ClaimContext
  decision : AdmissionDecisionId
  deriving DecidableEq, Repr

/-- A request for revocation. -/
structure RevokeMessage where
  claim : ClaimContext
  decision : AdmissionDecisionId
  reason : RevocationReason := .operatorRequest
  deriving DecidableEq, Repr

/-- The report of an error. -/
structure ErrorMessage where
  code : UInt16 := 0
  text : String := ""
  deriving DecidableEq, Repr

/-! ### Enumeration codes -/

def OriginKind.code : OriginKind → UInt8
  | .inProcess => 0
  | .claimant => 1
  | .operator => 2
  | .recovery => 3
  | .replay => 4

def BindingConstraintKind.code : BindingConstraintKind → UInt8
  | .none => 0
  | .requestContract => 1
  | .fence => 2
  | .identityConflict => 3
  | .unknownEvidence => 4
  | .staleGeneration => 5
  | .policy => 6
  | .qosClass => 7
  | .priorityClass => 8
  | .path => 9
  | .capacity => 10
  | .headroom => 11
  | .obligation => 12
  | .admittedLoad => 13
  | .degradation => 14
  | .durability => 15

def EngineReadiness.code : EngineReadiness → UInt8
  | .awaitingPolicy => 0
  | .awaitingCapacity => 1
  | .awaitingReservations => 2
  | .awaitingCatalogs => 3
  | .awaitingPaths => 4
  | .waitingForReconciliation => 5
  | .ready => 6

/-- The code of a status in an error message; zero is `Ok`. -/
def StatusCode.code : StatusCode → UInt16
  | .invalidArgument => 1
  | .malformedInput => 2
  | .oversizedInput => 3
  | .unknownResource => 4
  | .unknownPath => 5
  | .duplicateIdentity => 6
  | .conflictIdentity => 7
  | .staleGeneration => 8
  | .epochMismatch => 9
  | .fenced => 10
  | .notFound => 11
  | .alreadyExists => 12
  | .arithmeticOverflow => 13
  | .arithmeticUnderflow => 14
  | .capacityViolation => 15
  | .authorityViolation => 16
  | .durableFailure => 17
  | .corruptJournal => 18
  | .truncatedFrame => 19
  | .oversizedFrame => 20
  | .protocolViolation => 21
  | .transportFailure => 22
  | .unsupported => 23
  | .shuttingDown => 24
  | .busy => 25
  | .internal => 26

def OriginKind.all : List OriginKind := [.inProcess, .claimant, .operator, .recovery, .replay]

def BindingConstraintKind.all : List BindingConstraintKind :=
  [.none, .requestContract, .fence, .identityConflict, .unknownEvidence, .staleGeneration, .policy,
    .qosClass, .priorityClass, .path, .capacity, .headroom, .obligation, .admittedLoad,
    .degradation, .durability]

def AuthorityKind.all : List AuthorityKind :=
  [.fabricEpoch, .coordinatorIncarnation, .capacitySnapshot, .reservationSnapshot, .pathAuthority,
    .policy, .qosClassCatalog, .priorityClassCatalog, .resourceCapacity, .path, .reservation,
    .qosClass, .priorityClass]

def EngineReadiness.all : List EngineReadiness :=
  [.awaitingPolicy, .awaitingCapacity, .awaitingReservations, .awaitingCatalogs, .awaitingPaths,
    .waitingForReconciliation, .ready]

def ContentionPreference.all : List ContentionPreference := [.inheritPolicy, .defer, .reject]

def DegradePreference.all : List DegradePreference := [.inheritPolicy, .never, .downToMinimum]

/-! ### Encoders -/

/-- The text of a byte string. -/
def textOf (bytes : List UInt8) : String := String.ofList (bytes.map fun b => Char.ofNat b.toNat)

def putString (v : String) : List UInt8 := putText (asciiBytes v)

def putClaim (claim : ClaimContext) : List UInt8 := List.flatten [
  putU8 claim.origin.code, putU64 claim.publisher, putU64 claim.boot, putNat claim.session,
  putU64 claim.incarnation, putU64 claim.epoch, putU64 claim.attempt, putU64 claim.trace,
  putU64 claim.sequence]

def HelloMessage.encode (message : HelloMessage) : List UInt8 := List.flatten [
  putU16 message.protocolVersion, putU64 message.publisher, putU64 message.boot,
  putU32 message.maxFrame, putU64 message.clientNonce]

def WelcomeMessage.encode (message : WelcomeMessage) : List UInt8 := List.flatten [
  putBool message.accepted, putU64 message.epoch, putU64 message.incarnation,
  putNat message.session, putString message.reason]

def putBinding (binding : ResourceBinding) : List UInt8 :=
  putU64 binding.resource ++ putU64 binding.generation

def putCandidate (candidate : PathCandidate) : List UInt8 :=
  putU64 candidate.path ++ putU64 candidate.pathAuthorityGeneration

def putReservationRef (ref : ReservationRef) : List UInt8 :=
  putU64 ref.reservation ++ putU64 ref.generation

def putExpected (expected : AuthorityExpectation) : List UInt8 := List.flatten [
  putU64 expected.capacitySnapshot, putU64 expected.capacityGeneration,
  putU64 expected.reservationSnapshot, putU64 expected.reservationGeneration,
  putU64 expected.pathAuthorityGeneration, putU64 expected.policyGeneration,
  putU64 expected.qosCatalogGeneration, putU64 expected.priorityCatalogGeneration]

def putProvenance (provenance : Provenance) : List UInt8 := List.flatten [
  putU8 provenance.origin.code, putU64 provenance.publisher, putU64 provenance.boot,
  putU64 provenance.incarnation, putU64 provenance.epoch, putU64 provenance.attempt,
  putU64 provenance.trace, putU64 provenance.sequence]

def AdmissionRequest.encode (request : AdmissionRequest) : List UInt8 := List.flatten [
  putU64 request.request, putU64 request.demand, putU64 request.demandGeneration,
  putU64 request.attempt, putU64 request.rate.minimum, putU64 request.rate.desired,
  putU64 request.rate.maximum, putU64 request.qos, putU64 request.qosGeneration,
  putU64 request.priority, putU64 request.priorityGeneration, putU64 request.maximumLatency,
  putCount request.resourceBindings.length, request.resourceBindings.flatMap putBinding,
  putCount request.pathCandidates.length, request.pathCandidates.flatMap putCandidate,
  putU64 request.requiredPath, putCount request.reservationRefs.length,
  request.reservationRefs.flatMap putReservationRef, putU64 request.fairnessGroup,
  putU64 request.tenant, putBool request.preemptible,
  putBool request.requestsObligationPreemption, putBool request.allowPathSubstitution,
  putU8 request.contention.code, putU8 request.degradation.code, putU64 request.deadlineTicks,
  putU64 request.effectiveTick, putU64 request.effectiveInterval, putExpected request.expected,
  putProvenance request.provenance]

def AdmitMessage.encode (message : AdmitMessage) : List UInt8 := List.flatten [
  putClaim message.claim, message.request.encode]

def RevalidateMessage.encode (message : RevalidateMessage) : List UInt8 := List.flatten [
  putClaim message.claim, putNat message.decision]

def RevokeMessage.encode (message : RevokeMessage) : List UInt8 := List.flatten [
  putClaim message.claim, putNat message.decision, putU8 message.reason.code]

def ErrorMessage.encode (message : ErrorMessage) : List UInt8 := List.flatten [
  putU16 message.code, putString message.text]

/-- A constraint, up to the first of its texts that is too long, and whether all was written. -/
def putConstraint (constraint : BindingConstraint) : Bool × List UInt8 :=
  if constraint.subject.length > Limits.maxStringBytes then (false, putU8 constraint.kind.code)
  else
    let bytes := List.flatten [putU8 constraint.kind.code, putString constraint.subject,
      putNat constraint.subjectId, putU64 constraint.required, putU64 constraint.available,
      putU64 constraint.observed, putU64 constraint.authoritative]
    if constraint.detail.length > Limits.maxStringBytes then (false, bytes)
    else (true, bytes ++ putString constraint.detail)

def putConstraints : List BindingConstraint → Bool × List UInt8
  | [] => (true, [])
  | constraint :: rest =>
    match putConstraint constraint with
    | (false, bytes) => (false, bytes)
    | (true, bytes) =>
      let (complete, more) := putConstraints rest
      (complete, bytes ++ more)

/-- An explanation, up to the first text that is too long. -/
def putExplanation (explanation : Explanation) : List UInt8 :=
  putCount explanation.constraints.length ++
    match putConstraints explanation.constraints with
    | (false, bytes) => bytes
    | (true, bytes) => bytes ++ (putBool explanation.truncated ++ putU32 explanation.omitted)

def putAuthorityRef (ref : AuthorityRef) : List UInt8 := List.flatten [
  putU8 ref.kind.code, putNat ref.subject, putU64 ref.generation, putU64 ref.epoch]

def putAuthority (vector : AuthorityVector) : List UInt8 := List.flatten [
  putCount vector.refs.length, vector.refs.flatMap putAuthorityRef, putBool vector.truncated]

def putEffective (entry : EffectiveResource) : List UInt8 := List.flatten [
  putU64 entry.resource, putU64 entry.generation, putU64 entry.usable, putU64 entry.headroom,
  putU64 entry.obligations, putU64 entry.admitted, putU64 entry.availableForNew]

def AdmissionDecision.encode (decision : AdmissionDecision) : List UInt8 := List.flatten [
  putNat decision.decision, putNat decision.audit, putU8 decision.outcome.code,
  putU64 decision.request, putU64 decision.demand, putU64 decision.demandGeneration,
  putU64 decision.attempt, putU64 decision.trace, putU64 decision.epoch,
  putU64 decision.incarnation, putU64 decision.decidedTick, putU64 decision.selectedPath,
  putU64 decision.selectedPathGeneration, putU64 decision.granted,
  putU64 decision.minimumGuaranteed, putU64 decision.desired, putU64 decision.maximum,
  putU64 decision.holdingInterval, putU64 decision.boundCapacityGeneration,
  putBool decision.revalidationRequired, putBool decision.idempotentReplay,
  putU64 decision.requestFingerprint, putCount decision.effective.length,
  decision.effective.flatMap putEffective, putBool decision.effectiveTruncated,
  putExplanation decision.explanation, putAuthority decision.authority]

def RevalidationResult.encode (result : RevalidationResult) : List UInt8 := List.flatten [
  putNat result.decision, putU8 result.originalOutcome.code, putU8 result.state.code,
  putU8 result.reason.code, putU64 result.granted, putU64 result.tick,
  putBool result.ledgerReleased, putExplanation result.explanation,
  putAuthority result.authority]

/-- A status, without the infeasible resources, and with sizes truncated to 32 bits. -/
def FabricStatus.encode (status : FabricStatus) : List UInt8 := List.flatten [
  putU8 status.readiness.code, putU64 status.epoch, putU64 status.incarnation, putU64 status.tick,
  putBool status.hasPolicy, putBool status.hasCapacity, putBool status.hasReservations,
  putBool status.hasPaths, putBool status.hasQos, putBool status.hasPriority,
  putU64 status.policyGeneration, putU64 status.capacityGeneration,
  putU64 status.reservationGeneration, putU64 status.pathGeneration,
  putU64 status.qosGeneration, putU64 status.priorityGeneration, putU64 status.capacitySnapshot,
  putU64 status.reservationSnapshot, putNat status.auditSequence, putNat status.decisions,
  putNat status.admissions, putNat status.refusals, putNat status.deferrals,
  putNat status.idempotentReplays, putNat status.conflicts, putNat status.fences,
  putNat status.staleRefusals, putCount status.ledgerEntries, putCount status.liveDecisions,
  putCount status.liveSessions, putU64 status.totalAdmitted, putBool status.durable,
  putBool status.reconciled]

/-! ### Decoders -/

/-- Run a decoder over a whole payload. -/
def decodePayload {α : Type} (d : Decoder Status α) (bytes : List UInt8) : Except Status α :=
  decode (do let a ← d; exhausted (malformed "protocol payload has trailing bytes"); return a) bytes

def claimDecoder : Decoder Status ClaimContext := do
  let truncated := malformed "claim is truncated"
  let origin ← enumeration OriginKind.code OriginKind.all truncated
    (malformed "claim origin is invalid")
  let publisher ← u64 truncated
  let boot ← u64 truncated
  let session ← nat64 truncated
  let incarnation ← u64 truncated
  let epoch ← u64 truncated
  let attempt ← u64 truncated
  let trace ← u64 truncated
  let sequence ← u64 truncated
  return { origin, publisher, boot, session, incarnation, epoch, attempt, trace, sequence }

def helloDecoder : Decoder Status HelloMessage := do
  let truncated := malformed "hello is truncated"
  let version ← u16 truncated
  require (version = AdmissionFabric.protocolVersion) ⟨.unsupported, "protocol version mismatch"⟩
  let publisher ← u64 truncated
  let boot ← u64 truncated
  let maxFrame ← u32 truncated
  require (maxFrame ≤ Limits.maxFrameBytes) (oversized "hello frame bound is too large")
  let clientNonce ← u64 truncated
  return { protocolVersion := version, publisher, boot, maxFrame, clientNonce }

def decodeHello (bytes : List UInt8) : Except Status HelloMessage :=
  decodePayload helloDecoder bytes

/-- Two numbers in a row, as every item of the three lists of a request. -/
def pairDecoder {α : Type} (make : UInt64 → UInt64 → α) (truncated : Status) :
    Decoder Status α := do
  let first ← u64 truncated
  let second ← u64 truncated
  return make first second

def expectedDecoder (truncated : Status) : Decoder Status AuthorityExpectation := do
  let capacitySnapshot ← u64 truncated
  let capacityGeneration ← u64 truncated
  let reservationSnapshot ← u64 truncated
  let reservationGeneration ← u64 truncated
  let pathAuthorityGeneration ← u64 truncated
  let policyGeneration ← u64 truncated
  let qosCatalogGeneration ← u64 truncated
  let priorityCatalogGeneration ← u64 truncated
  return {
    capacitySnapshot, capacityGeneration, reservationSnapshot, reservationGeneration,
    pathAuthorityGeneration, policyGeneration, qosCatalogGeneration, priorityCatalogGeneration }

def provenanceDecoder (truncated : Status) : Decoder Status Provenance := do
  let origin ← enumeration OriginKind.code OriginKind.all truncated (malformed "origin is invalid")
  let publisher ← u64 truncated
  let boot ← u64 truncated
  let incarnation ← u64 truncated
  let epoch ← u64 truncated
  let attempt ← u64 truncated
  let trace ← u64 truncated
  let sequence ← u64 truncated
  return { origin, publisher, boot, incarnation, epoch, attempt, trace, sequence }

/-- The two preferences; both bytes are read before either is judged. -/
def preferencesDecoder (truncated : Status) :
    Decoder Status (ContentionPreference × DegradePreference) := do
  let contention ← u8 truncated
  let degradation ← u8 truncated
  let contention ← orElse (ofCode ContentionPreference.code ContentionPreference.all contention)
    (malformed "contention preference is invalid")
  let degradation ← orElse (ofCode DegradePreference.code DegradePreference.all degradation)
    (malformed "degradation preference is invalid")
  return (contention, degradation)

def requestDecoder : Decoder Status AdmissionRequest := do
  let truncated := malformed "admit is truncated"
  let request ← u64 truncated
  let demand ← u64 truncated
  let demandGeneration ← u64 truncated
  let attempt ← u64 truncated
  let minimum ← u64 truncated
  let desired ← u64 truncated
  let maximum ← u64 truncated
  let qos ← u64 truncated
  let qosGeneration ← u64 truncated
  let priority ← u64 truncated
  let priorityGeneration ← u64 truncated
  let maximumLatency ← u64 truncated
  let bindingCount ← count Limits.maxResourceBindings truncated
    (oversized "too many resource bindings")
  let resourceBindings ← repeated (pairDecoder ResourceBinding.mk truncated) bindingCount
  let candidateCount ← count Limits.maxPathCandidates truncated
    (oversized "too many path candidates")
  let pathCandidates ← repeated (pairDecoder PathCandidate.mk truncated) candidateCount
  let requiredPath ← u64 truncated
  let refCount ← count Limits.maxReservationRefs truncated
    (oversized "too many reservation references")
  let reservationRefs ← repeated (pairDecoder ReservationRef.mk truncated) refCount
  let fairnessGroup ← u64 truncated
  let tenant ← u64 truncated
  let preemptible ← boolean truncated
  let requestsObligationPreemption ← boolean truncated
  let allowPathSubstitution ← boolean truncated
  let preferences ← preferencesDecoder truncated
  let deadlineTicks ← u64 truncated
  let effectiveTick ← u64 truncated
  let effectiveInterval ← u64 truncated
  let expected ← expectedDecoder truncated
  let provenance ← provenanceDecoder truncated
  return {
    request, demand, demandGeneration, attempt, rate := ⟨minimum, desired, maximum⟩, qos,
    qosGeneration, priority, priorityGeneration, maximumLatency, resourceBindings, pathCandidates,
    requiredPath, reservationRefs, fairnessGroup, tenant, preemptible,
    requestsObligationPreemption, allowPathSubstitution, contention := preferences.1,
    degradation := preferences.2, deadlineTicks, effectiveTick, effectiveInterval, expected,
    provenance }

def admitDecoder : Decoder Status AdmitMessage := do
  let claim ← claimDecoder
  let request ← requestDecoder
  return { claim, request }

def decodeAdmit (bytes : List UInt8) : Except Status AdmitMessage :=
  decodePayload admitDecoder bytes

def revalidateDecoder : Decoder Status RevalidateMessage := do
  let claim ← claimDecoder
  let decision ← nat64 (malformed "revalidate is truncated")
  return { claim, decision }

def decodeRevalidate (bytes : List UInt8) : Except Status RevalidateMessage :=
  decodePayload revalidateDecoder bytes

def revokeDecoder : Decoder Status RevokeMessage := do
  let truncated := malformed "revoke is truncated"
  let claim ← claimDecoder
  let decision ← nat64 truncated
  let reason ← enumeration RevocationReason.code RevocationReason.all truncated
    (malformed "revocation reason is invalid")
  return { claim, decision, reason }

def decodeRevoke (bytes : List UInt8) : Except Status RevokeMessage :=
  decodePayload revokeDecoder bytes

def stringDecoder (invalid : Status) : Decoder Status String := return textOf (← text invalid)

def constraintDecoder : Decoder Status BindingConstraint := do
  let truncated := malformed "explanation is truncated"
  let kind ← enumeration BindingConstraintKind.code BindingConstraintKind.all truncated
    (malformed "explanation constraint kind is invalid")
  let subject ← stringDecoder (malformed "explanation subject is invalid")
  let subjectId ← nat64 truncated
  let required ← u64 truncated
  let available ← u64 truncated
  let observed ← u64 truncated
  let authoritative ← u64 truncated
  let detail ← stringDecoder (malformed "explanation detail is invalid")
  return { kind, subject, subjectId, required, available, observed, authoritative, detail }

/-- An explanation is rebuilt by adding to an empty one with the largest bounds. -/
def explanationDecoder : Decoder Status Explanation := do
  let truncated := malformed "explanation is truncated"
  let n ← count Limits.maxExplanationConstraints truncated
    (oversized "explanation has too many constraints")
  let constraints ← repeated constraintDecoder n
  let explanation := constraints.foldl Explanation.add
    (({} : Explanation).configure Limits.maxExplanationConstraints Limits.maxExplanationBytes)
  let isTruncated ← boolean truncated
  let _omitted ← u32 truncated
  return if isTruncated then explanation.add {} else explanation

def authorityRefDecoder (truncated : Status) : Decoder Status AuthorityRef := do
  let kind ← enumeration AuthorityKind.code AuthorityKind.all truncated
    (malformed "authority kind is invalid")
  let subject ← nat64 truncated
  let generation ← u64 truncated
  let epoch ← u64 truncated
  return { kind, subject, generation, epoch }

def authorityDecoder : Decoder Status AuthorityVector := do
  let truncated := malformed "authority vector is truncated"
  let n ← count Limits.maxAuthorityRefs truncated (oversized "authority vector is too large")
  let refs ← repeated (authorityRefDecoder truncated) n
  let _truncated ← boolean truncated
  return refs.foldl AuthorityVector.addRef {}

def effectiveDecoder (truncated : Status) : Decoder Status EffectiveResource := do
  let resource ← u64 truncated
  let generation ← u64 truncated
  let usable ← u64 truncated
  let headroom ← u64 truncated
  let obligations ← u64 truncated
  let admitted ← u64 truncated
  let availableForNew ← u64 truncated
  return { resource, generation, usable, headroom, obligations, admitted, availableForNew }

def replyDecisionDecoder : Decoder Status AdmissionDecision := do
  let truncated := malformed "decision is truncated"
  let decision ← nat64 truncated
  let audit ← nat64 truncated
  let outcome ← enumeration AdmissionOutcome.code AdmissionOutcome.all truncated
    (malformed "decision outcome is invalid")
  let request ← u64 truncated
  let demand ← u64 truncated
  let demandGeneration ← u64 truncated
  let attempt ← u64 truncated
  let trace ← u64 truncated
  let epoch ← u64 truncated
  let incarnation ← u64 truncated
  let decidedTick ← u64 truncated
  let selectedPath ← u64 truncated
  let selectedPathGeneration ← u64 truncated
  let granted ← u64 truncated
  let minimumGuaranteed ← u64 truncated
  let desired ← u64 truncated
  let maximum ← u64 truncated
  let holdingInterval ← u64 truncated
  let boundCapacityGeneration ← u64 truncated
  let revalidationRequired ← boolean truncated
  let idempotentReplay ← boolean truncated
  let requestFingerprint ← u64 truncated
  let n ← count Limits.maxEffectiveResources truncated
    (oversized "decision effective list is too large")
  let effective ← repeated (effectiveDecoder truncated) n
  let effectiveTruncated ← boolean truncated
  let explanation ← explanationDecoder
  let authority ← authorityDecoder
  return {
    decision, audit, outcome, request, demand, demandGeneration, attempt, trace, epoch,
    incarnation, decidedTick, selectedPath, selectedPathGeneration, granted, minimumGuaranteed,
    desired, maximum, holdingInterval, boundCapacityGeneration, revalidationRequired,
    idempotentReplay, requestFingerprint, effective, effectiveTruncated, explanation, authority }

def decodeDecision (bytes : List UInt8) : Except Status AdmissionDecision :=
  decodePayload replyDecisionDecoder bytes

/-- The three enumerations of a result; all bytes are read before any is judged. -/
def revalidationCodesDecoder (truncated : Status) :
    Decoder Status (AdmissionOutcome × RevalidationState × RevocationReason) := do
  let outcome ← u8 truncated
  let state ← u8 truncated
  let reason ← u8 truncated
  let outcome ← orElse (ofCode AdmissionOutcome.code AdmissionOutcome.all outcome)
    (malformed "revalidation outcome is invalid")
  let state ← orElse (ofCode RevalidationState.code RevalidationState.all state)
    (malformed "revalidation state is invalid")
  let reason ← orElse (ofCode RevocationReason.code RevocationReason.all reason)
    (malformed "revalidation reason is invalid")
  return (outcome, state, reason)

def revalidationDecoder : Decoder Status RevalidationResult := do
  let truncated := malformed "revalidation is truncated"
  let decision ← nat64 truncated
  let codes ← revalidationCodesDecoder truncated
  let granted ← u64 truncated
  let tick ← u64 truncated
  let ledgerReleased ← boolean truncated
  let explanation ← explanationDecoder
  let authority ← authorityDecoder
  return {
    decision, originalOutcome := codes.1, state := codes.2.1, reason := codes.2.2, granted, tick,
    ledgerReleased, explanation, authority }

def decodeRevalidation (bytes : List UInt8) : Except Status RevalidationResult :=
  decodePayload revalidationDecoder bytes

def statusDecoder : Decoder Status FabricStatus := do
  let truncated := malformed "status is truncated"
  let readiness ← enumeration EngineReadiness.code EngineReadiness.all truncated
    (malformed "status readiness is invalid")
  let epoch ← u64 truncated
  let incarnation ← u64 truncated
  let tick ← u64 truncated
  let hasPolicy ← boolean truncated
  let hasCapacity ← boolean truncated
  let hasReservations ← boolean truncated
  let hasPaths ← boolean truncated
  let hasQos ← boolean truncated
  let hasPriority ← boolean truncated
  let policyGeneration ← u64 truncated
  let capacityGeneration ← u64 truncated
  let reservationGeneration ← u64 truncated
  let pathGeneration ← u64 truncated
  let qosGeneration ← u64 truncated
  let priorityGeneration ← u64 truncated
  let capacitySnapshot ← u64 truncated
  let reservationSnapshot ← u64 truncated
  let auditSequence ← nat64 truncated
  let decisions ← nat64 truncated
  let admissions ← nat64 truncated
  let refusals ← nat64 truncated
  let deferrals ← nat64 truncated
  let idempotentReplays ← nat64 truncated
  let conflicts ← nat64 truncated
  let fences ← nat64 truncated
  let staleRefusals ← nat64 truncated
  let ledgerEntries ← word 4 truncated
  let liveDecisions ← word 4 truncated
  let liveSessions ← word 4 truncated
  let totalAdmitted ← u64 truncated
  let durable ← boolean truncated
  let reconciled ← boolean truncated
  return {
    readiness, epoch, incarnation, tick, hasPolicy, hasCapacity, hasReservations, hasPaths, hasQos,
    hasPriority, policyGeneration, capacityGeneration, reservationGeneration, pathGeneration,
    qosGeneration, priorityGeneration, capacitySnapshot, reservationSnapshot, auditSequence,
    decisions, admissions, refusals, deferrals, idempotentReplays, conflicts, fences,
    staleRefusals, ledgerEntries, liveDecisions, liveSessions, totalAdmitted, durable,
    reconciled }

def decodeStatus (bytes : List UInt8) : Except Status FabricStatus :=
  decodePayload statusDecoder bytes

end AdmissionFabric
