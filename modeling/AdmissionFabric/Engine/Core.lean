import AdmissionFabric.Durable.Journal
import AdmissionFabric.Engine.Attempts
import AdmissionFabric.Engine.Authority
import AdmissionFabric.Model.Request

/-!
# The engine core

Everything the coordinator owns, and the plumbing that turns a verdict into a decision: building
a decision, writing records, and remembering what was decided. A call that changes the core and
may fail returns its result together with the core, because a failed call keeps the changes made
before the failure.

Fault injection, a test facility of the source, is not modelled: a failing write is an outcome of
the disk.

Source: `src/engine/engine_core.hpp`, `include/naf/engine/engine.hpp`, `src/engine/engine.cpp`.
-/

namespace AdmissionFabric

open Std (ExtTreeMap)

variable {β α : Type}

/-! ### Configuration, claims and counters -/

/-- The settings of an engine. -/
structure EngineConfig where
  epoch : FabricEpoch := 1
  incarnation : CoordinatorIncarnation := 0
  initialTick : UInt64 := 0
  historyCapacity : Nat := Limits.maxDecisionRecords
  attemptCapacity : Nat := Limits.maxAttemptRecords
  sessionCapacity : Nat := Limits.maxSessionRecords
  acceptInProcessClaims : Bool := true
  deriving DecidableEq, Repr

/-- How a caller proved it is allowed to talk to this coordinator incarnation. -/
structure ClaimContext where
  origin : OriginKind := .inProcess
  publisher : PublisherId := 0
  boot : BootId := 0
  session : SessionNonce := 0
  incarnation : CoordinatorIncarnation := 0
  epoch : FabricEpoch := 0
  attempt : AttemptId := 0
  trace : TraceId := 0
  sequence : UInt64 := 0
  deriving DecidableEq, Repr

/-- A registered session. -/
structure SessionRecord where
  nonce : SessionNonce
  publisher : PublisherId
  boot : BootId
  deriving DecidableEq, Repr

/-- What the engine counts. -/
structure Counters where
  decisions : Nat := 0
  admissions : Nat := 0
  refusals : Nat := 0
  deferrals : Nat := 0
  idempotentReplays : Nat := 0
  conflicts : Nat := 0
  fences : Nat := 0
  staleRefusals : Nat := 0
  deriving DecidableEq, Repr

/-- Count one decision by its outcome. -/
def Counters.count (counters : Counters) (outcome : AdmissionOutcome) : Counters :=
  let counters := { counters with decisions := counters.decisions + 1 }
  match outcome with
  | .admitted | .admitDegraded => { counters with admissions := counters.admissions + 1 }
  | .defer => { counters with deferrals := counters.deferrals + 1 }
  | .staleInput => { counters with
      staleRefusals := counters.staleRefusals + 1, refusals := counters.refusals + 1 }
  | .conflictingInput => { counters with
      conflicts := counters.conflicts + 1, refusals := counters.refusals + 1 }
  | .fencedClaimant => { counters with
      fences := counters.fences + 1, refusals := counters.refusals + 1 }
  | _ => { counters with refusals := counters.refusals + 1 }

/-- What caused an accounting-enforcement pass. -/
inductive EnforcementTrigger
  | none
  | capacityPublication
  | reservationPublication
  | policyPublication
  | restartRecovery
  deriving DecidableEq, Repr

/-- What an enforcement pass did. -/
structure ReconciliationReport where
  performed : Bool := false
  trigger : EnforcementTrigger := .none
  revoked : Nat := 0
  retained : Nat := 0
  released : Rate := 0
  infeasibleResources : Nat := 0
  revokedDecisions : List AdmissionDecisionId := []
  constraints : List BindingConstraint := []
  deriving DecidableEq, Repr

/-- Per-resource arithmetic performed for one request. -/
structure ResourceView where
  resource : ResourceId
  generation : Generation
  usable : Rate
  headroom : Rate
  obligations : Rate
  admitted : Rate
  availableAfterObligations : Rate
  availableForNew : Rate
  deriving DecidableEq, Repr

/-! ### The core -/

/-- Everything the engine owns. -/
structure EngineCore extends Authority where
  config : EngineConfig := {}
  ledger : AdmittedLoadLedger := {}
  history : DecisionHistory := {}
  attempts : AttemptRegistry := {}
  decisionCache : ExtTreeMap AdmissionDecisionId AdmissionDecision := ∅
  sessions : ExtTreeMap SessionNonce SessionRecord := ∅
  nextSessionNonce : SessionNonce := 1
  nextDecisionSequence : AdmissionDecisionId := 1
  audit : AuditSequence := 0
  counters : Counters := {}
  journal : Option Journal := none
  journalReady : Bool := false
  reconciliation : ReconciliationReport := {}

/-- The result of a call together with the core it leaves behind. -/
abbrev Outcome (α : Type) := Except Status α × EngineCore

/-- Continue after a successful call; a failure keeps the core as the call left it. -/
def Outcome.andThen {α β : Type} (outcome : Outcome α) (f : α → EngineCore → Outcome β) :
    Outcome β :=
  match outcome with
  | (.ok a, core) => f a core
  | (.error status, core) => (.error status, core)

@[simp] theorem Outcome.andThen_ok (a : α) (core : EngineCore) (f : α → EngineCore → Outcome β) :
    Outcome.andThen (.ok a, core) f = f a core := rfl

@[simp] theorem Outcome.andThen_error (status : Status) (core : EngineCore)
    (f : α → EngineCore → Outcome β) :
    Outcome.andThen (.error status, core) f = (.error status, core) := rfl

theorem Outcome.andThen_induction {P : EngineCore → Prop} {outcome : Outcome α}
    {f : α → EngineCore → Outcome β} (h : P outcome.2)
    (hf : ∀ a core, outcome = (.ok a, core) → P core → P (f a core).2) :
    P (outcome.andThen f).2 := by
  obtain ⟨_ | a, core⟩ := outcome
  · exact h
  · exact hf a core rfl h

/-- A fresh engine. -/
def EngineCore.fresh (config : EngineConfig) : EngineCore where
  epoch := config.epoch
  incarnation := config.incarnation
  tick := config.initialTick
  config := config
  history := { capacity := config.historyCapacity }
  attempts := { capacity := config.attemptCapacity }

namespace Authority

/-! ### Authority vectors of a decision -/

/-- The fabric-global authority. -/
def fillAuthority (authority : Authority) (vector : AuthorityVector) : AuthorityVector :=
  let vector := vector.add .fabricEpoch 0 1 authority.epoch
  let vector := vector.add .coordinatorIncarnation authority.incarnation.toNat 1 authority.epoch
  let vector := match authority.policy with
    | some p => vector.add .policy p.id.toNat p.generation authority.epoch
    | none => vector
  let vector := match authority.capacity with
    | some c => vector.add .capacitySnapshot c.snapshot.toNat c.generation authority.epoch
    | none => vector
  let vector := match authority.reservations with
    | some s => vector.add .reservationSnapshot s.snapshot.toNat s.generation authority.epoch
    | none => vector
  let vector := match authority.paths with
    | some c => vector.add .pathAuthority 0 c.pathAuthorityGeneration authority.epoch
    | none => vector
  let vector := match authority.qos with
    | some c => vector.add .qosClassCatalog 0 c.generation authority.epoch
    | none => vector
  match authority.priorities with
    | some c => vector.add .priorityClassCatalog 0 c.generation authority.epoch
    | none => vector

/-- The references for the resources, the path and the reservations that a decision evaluated. -/
def fillTargetAuthority (authority : Authority) (vector : AuthorityVector)
    (views : List ResourceView) (path : PathId) (pathGeneration : Generation) : AuthorityVector :=
  let vector := views.foldl (fun vector view =>
    vector.add .resourceCapacity view.resource.toNat view.generation authority.epoch) vector
  let vector := if path ≠ 0 then vector.add .path path.toNat pathGeneration authority.epoch
    else vector
  views.foldl (fun vector view =>
    (authority.indexedObligations view.resource).foldl (fun vector obligation =>
      vector.add .reservation obligation.reservation.toNat obligation.reservationGeneration
        authority.epoch) vector) vector

/-- Bound an explanation as the policy says. -/
def configureExplanation (authority : Authority) (explanation : Explanation) : Explanation :=
  match authority.policy with
  | some policy => explanation.configure policy.maxExplanationConstraints.toNat
      policy.maxExplanationBytes.toNat
  | none => explanation

/-- Expose the per-resource arithmetic, up to the bound of the policy. -/
def fillEffective (authority : Authority) (views : List ResourceView)
    (decision : AdmissionDecision) : AdmissionDecision :=
  let bound := match authority.policy with
    | some policy => policy.maxEffectiveResources.toNat
    | none => Limits.maxEffectiveResources
  let room := bound - decision.effective.length
  { decision with
    effective := decision.effective ++ (views.take room).map fun view => {
      resource := view.resource
      generation := view.generation
      usable := view.usable
      headroom := view.headroom
      obligations := view.obligations
      admitted := view.admitted
      availableForNew := view.availableForNew }
    effectiveTruncated := decision.effectiveTruncated || decide (views.length > room) }

end Authority

namespace EngineCore

/-! ### Building a decision -/

/-- The decision that `begin_decision` starts from, with the next identity. -/
def newDecision (core : EngineCore) (request : AdmissionRequest) (claim : ClaimContext)
    (outcome : AdmissionOutcome) : AdmissionDecision where
  decision := core.nextDecisionSequence
  audit := core.audit
  outcome := outcome
  request := request.request
  demand := request.demand
  demandGeneration := request.demandGeneration
  attempt := request.attempt
  trace := if claim.trace ≠ 0 then claim.trace else request.provenance.trace
  epoch := core.epoch
  incarnation := core.incarnation
  decidedTick := core.tick
  desired := request.rate.desired
  maximum := request.rate.maximum
  holdingInterval := request.effectiveInterval
  requestFingerprint := request.fingerprint
  explanation := core.configureExplanation {}
  authority := core.fillAuthority {}

/-- Consume the next identity and audit sequence, before anything is written. -/
def consumeIdentity (core : EngineCore) : EngineCore :=
  { core with
    nextDecisionSequence := core.nextDecisionSequence + 1
    audit := core.audit + 1 }

/-- The record of a decision. -/
def toRecord (core : EngineCore) (decision : AdmissionDecision) : DecisionRecord where
  decision := decision.decision
  audit := decision.audit
  outcome := decision.outcome
  request := decision.request
  demand := decision.demand
  demandGeneration := decision.demandGeneration
  attempt := decision.attempt
  path := decision.selectedPath
  granted := decision.granted
  epoch := decision.epoch
  incarnation := decision.incarnation
  decidedTick := decision.decidedTick
  fingerprint := decision.requestFingerprint
  boundCapacityGeneration := decision.boundCapacityGeneration
  boundPolicyGeneration := (core.policy.map (·.generation)).getD 0
  boundQosGeneration := (core.qos.map (·.generation)).getD 0
  boundPriorityGeneration := (core.priorities.map (·.generation)).getD 0
  boundPathGeneration := (core.paths.map (·.pathAuthorityGeneration)).getD 0
  boundReservationGeneration := (core.reservations.map (·.generation)).getD 0

/-- The attempt under which a decision on a request is recorded. -/
def attemptOf (core : EngineCore) (request : AdmissionRequest) (decision : AdmissionDecision) :
    AttemptRecord where
  request := request.request
  demand := request.demand
  demandGeneration := request.demandGeneration
  attempt := request.attempt
  fingerprint := decision.requestFingerprint
  decision := decision.decision
  outcome := decision.outcome
  recordedTick := core.tick

/-- Keep a decision in the bounded cache; a full cache drops its smallest identity. -/
def remember (cache : ExtTreeMap AdmissionDecisionId AdmissionDecision)
    (decision : AdmissionDecision) : ExtTreeMap AdmissionDecisionId AdmissionDecision :=
  let cache :=
    if cache.size ≥ Limits.maxDecisionRecords then
      match cache.minKey? with
      | some oldest => cache.erase oldest
      | none => cache
    else cache
  cache.insert decision.decision decision

/-- Retire records beyond the capacity. -/
def trimHistory (history : DecisionHistory) (ledger : AdmittedLoadLedger) : DecisionHistory :=
  if history.needsTrim then history.trim ledger else history

/-- What is remembered of a durable decision: its record, its attempt, the decision itself. -/
def settle (core : EngineCore) (decision : AdmissionDecision) (record : DecisionRecord)
    (attempt : Option AttemptRecord) : EngineCore :=
  { core with
    history := trimHistory (core.history.insert record) core.ledger
    attempts := match attempt with
      | some attempt => core.attempts.record attempt
      | none => core.attempts
    decisionCache := remember core.decisionCache decision
    counters := core.counters.count decision.outcome }

/-! ### Durable writers -/

/-- Append a record to the journal. Without one that is ready nothing is written. -/
def writeJournal (journal : Option Journal) (ready : Bool) (record : JournalRecord) :
    Except Status Unit × Option Journal :=
  match journal with
  | none => (.ok (), none)
  | some journal =>
    if ready then ((journal.append record).1, some (journal.append record).2)
    else (.ok (), some journal)

/-- Append a record to the journal, if one is in use. -/
def writeRecord (core : EngineCore) (record : JournalRecord) : Outcome Unit :=
  let written := writeJournal core.journal core.journalReady record
  (written.1, { core with journal := written.2 })

/-- The record of a boot. -/
def makeBootRecord (epoch : FabricEpoch) (incarnation : CoordinatorIncarnation) : BootRecord where
  epoch := epoch
  formatRevision := formatRevision
  product := asciiBytes productName
  bootNonce := incarnation
  incarnation := incarnation

/-- Record the boot. -/
def writeBoot (core : EngineCore) : Outcome Unit :=
  core.writeRecord (.bootEpoch (makeBootRecord core.epoch core.incarnation))

/-- The frames a journal counts; zero without one. -/
def frameCount (core : EngineCore) : Nat := (core.journal.map (·.frameCount)).getD 0

/-- Record the next audit sequence. -/
def writeAuditMark (core : EngineCore) : Outcome Unit :=
  core.writeRecord (.auditMark
    { sequence := core.audit, epoch := core.epoch, frames := core.frameCount })

end EngineCore

end AdmissionFabric
