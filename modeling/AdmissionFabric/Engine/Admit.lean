import AdmissionFabric.Engine.Compaction
import AdmissionFabric.Engine.Evaluate

/-!
# Admission

`verdict` is the admission evaluation as a pure function of the state: what a request is answered
and on which evidence. `admitLocked` carries the verdict out: it consumes an identity, writes the
journal and the ledger, and remembers the decision.

A grant is committed in two phases: its intent is durable before the ledger holds the load, and
the load is given back when the commit cannot be written. An attempt is recorded for every
refusal except those that say nothing about the attempt itself: a broken contract, a reused
identity, and a replay whose decision has been retired.

Source: `src/engine/admission.cpp`, `src/engine/engine.cpp`.
-/

namespace AdmissionFabric

/-! ### Evaluation -/

/-- What a verdict of the capacity stage rests on. -/
structure Evidence where
  views : List ResourceView
  path : PathId := 0
  pathGeneration : Generation := 0
  deriving DecidableEq, Repr

/-- A grant that the evaluation arrived at. -/
structure Grant where
  outcome : AdmissionOutcome
  granted : Rate
  targets : List ResourceId
  binding : BindingConstraint
  evidence : Evidence
  deriving DecidableEq, Repr

/-- The declared bindings and the traversal, sorted and without repetition. -/
def targetsOf (request : AdmissionRequest) (traversal : List ResourceId) : List ResourceId :=
  ((request.resourceBindings.map (·.resource) ++ traversal).dedup).insertionSort (· ≤ ·)

namespace Authority

/-- The policy, the class and the request permit less than desired. -/
def degradeAllowed (authority : Authority) (request : AdmissionRequest) : Bool :=
  (authority.policy.map (·.allowDegraded)).getD false && request.degradation != .never &&
    ((authority.findQos request.qos).map (·.degradationAllowed)).getD true

/-- The grant under a ceiling, or a refusal. -/
def decideGrant (authority : Authority) (request : AdmissionRequest) (ceiling : Rate)
    (binding : BindingConstraint) :
    Except Refusal (AdmissionOutcome × Rate × BindingConstraint) := do
  let grant := min ceiling request.rate.maximum
  let degraded (detail : String) : BindingConstraint :=
    { constraintOf .degradation "grant" 0 detail with
      required := request.rate.desired
      available := grant }
  rejectIf (grant < request.rate.minimum) ⟨.rejectCapacity, binding⟩
  if grant < request.rate.desired then do
    rejectIf (¬ authority.degradeAllowed request) ⟨.rejectCapacity, degraded
      "the requested rate cannot be met and degradation is not permitted"⟩
    return (.admitDegraded, grant, degraded
      "admitted below the desired rate but at or above the demand minimum")
  else return (.admitted, grant, binding)

/-- The stages that settle on which resources and path a request is evaluated. -/
def resolve (authority : Authority) (ledger : AdmittedLoadLedger) (request : AdmissionRequest) :
    Except Refusal (PathSelection × List ResourceId) := do
  authority.checkReadiness
  authority.checkExpectations request
  authority.checkPolicy request
  let selection ← authority.selectPath ledger request
  let targets := targetsOf request selection.traversal
  rejectIf (targets = []) ⟨.rejectPolicy, constraintOf .requestContract "request"
    request.request.toNat "request resolves to an empty governed resource set"⟩
  return (selection, targets)

/-- The path fact that bounds the grant: only that of a selected path. -/
def selectedFact (authority : Authority) (selection : PathSelection) :
    Option PathAdmissionFact :=
  if selection.pathSelected then authority.findPath selection.selected else none

/-- The evaluation of a request that is fenced in and new. A refusal of the capacity stage comes
with its evidence. -/
def evaluate (authority : Authority) (ledger : AdmittedLoadLedger) (request : AdmissionRequest) :
    Except (Refusal × Option Evidence) Grant :=
  match authority.resolve ledger request with
  | .error refusal => .error (refusal, none)
  | .ok (selection, targets) =>
    let capacity := authority.evaluateCapacity ledger request targets
      (authority.selectedFact selection)
    let evidence : Evidence := ⟨capacity.2, selection.selected, selection.selectedGeneration⟩
    match capacity.1.bind fun c => authority.decideGrant request c.1 c.2 with
    | .error refusal => .error (refusal, some evidence)
    | .ok (outcome, granted, binding) => .ok { outcome, granted, targets, binding, evidence }

end Authority

/-! ### The verdict -/

/-- What an admission call is answered. -/
inductive Verdict
  | refuse (refusal : Refusal) (evidence : Option Evidence) (recordAttempt : Bool)
  | retired (refusal : Refusal)
  | replay (decision : AdmissionDecision)
  | grant (grant : Grant)

namespace EngineCore

/-- The attempt that the registry is asked about. -/
def probe (request : AdmissionRequest) : AttemptRecord where
  request := request.request
  demand := request.demand
  demandGeneration := request.demandGeneration
  attempt := request.attempt
  fingerprint := request.fingerprint

/-- The answer to a replay whose decision is only in the history. -/
def replayOf (core : EngineCore) (request : AdmissionRequest) (record : DecisionRecord) :
    AdmissionDecision where
  decision := record.decision
  audit := record.audit
  outcome := record.outcome
  request := record.request
  demand := record.demand
  demandGeneration := record.demandGeneration
  attempt := record.attempt
  epoch := record.epoch
  incarnation := record.incarnation
  decidedTick := record.decidedTick
  selectedPath := record.path
  selectedPathGeneration := record.boundPathGeneration
  granted := record.granted
  minimumGuaranteed := request.rate.minimum
  desired := request.rate.desired
  maximum := request.rate.maximum
  boundCapacityGeneration := record.boundCapacityGeneration
  revalidationRequired := record.state = .invalidated
  requestFingerprint := record.fingerprint
  idempotentReplay := true
  explanation := (core.configureExplanation {}).add (constraintOf .none "idempotent_replay"
    record.decision "identical attempt replayed from the durable decision history")
  authority := (core.fillAuthority {}).add .capacitySnapshot record.decision
    record.boundCapacityGeneration record.epoch

/-- The answer to an attempt that was decided before. -/
def replayVerdict (core : EngineCore) (request : AdmissionRequest)
    (existing : AdmissionDecisionId) : Verdict :=
  match core.decisionCache[existing]? with
  | some cached => .replay { cached with idempotentReplay := true }
  | none => match core.history.find existing with
    | some record => .replay (core.replayOf request record)
    | none => .retired ⟨.conflictingInput, constraintOf .identityConflict "attempt"
        request.attempt.toNat
        "attempt was acknowledged but its decision record has been retired"⟩

/-- The refusal of an identity that was used for something else. -/
def conflictRefusal (request : AdmissionRequest)
    (classification : AttemptRegistry.Classification) : Refusal where
  outcome := .conflictingInput
  constraint := { constraintOf .identityConflict "attempt" request.attempt.toNat
      (if classification.requestIdConflict then
        "request identity was reused for different content"
      else "attempt identity was reused with different content") with
    observed := classification.existing.fingerprint
    authoritative := request.fingerprint }

/-- The admission evaluation, in the order of the source. -/
def verdict (core : EngineCore) (request : AdmissionRequest) (claim : ClaimContext) : Verdict :=
  match request.validate with
  | .error contract => .refuse ⟨.rejectPolicy, constraintOf .requestContract "request"
      request.request.toNat contract.message⟩ none false
  | .ok () => match core.checkFence claim with
    | .error refusal => .refuse refusal none true
    | .ok () =>
      let classification := core.attempts.classify (probe request)
      match classification.disposition with
      | .replay => core.replayVerdict request classification.existing.decision
      | .conflict => .refuse (conflictRefusal request classification) none false
      | .new => match core.toAuthority.evaluate core.ledger request with
        | .error (refusal, evidence) => .refuse refusal evidence true
        | .ok grant => .grant grant

/-! ### Carrying out a verdict -/

/-- Expose what a decision was evaluated on. -/
def expose (core : EngineCore) (evidence : Evidence) (decision : AdmissionDecision) :
    AdmissionDecision :=
  let decision := core.fillEffective evidence.views decision
  { decision with
    authority := core.fillTargetAuthority decision.authority evidence.views evidence.path
      evidence.pathGeneration }

/-- The decision of a refusal. -/
def refusal (core : EngineCore) (request : AdmissionRequest) (claim : ClaimContext)
    (refusal : Refusal) (evidence : Option Evidence) : AdmissionDecision :=
  let decision := core.newDecision request claim refusal.outcome
  let decision := { decision with
    explanation := decision.explanation.add refusal.constraint }
  match evidence with
  | some evidence => core.expose evidence decision
  | none => decision

/-- The decision of a grant. -/
def admission (core : EngineCore) (request : AdmissionRequest) (claim : ClaimContext)
    (grant : Grant) : AdmissionDecision :=
  let decision := { core.newDecision request claim grant.outcome with
    selectedPath := grant.evidence.path
    selectedPathGeneration := grant.evidence.pathGeneration
    granted := grant.granted
    minimumGuaranteed := request.rate.minimum
    boundCapacityGeneration := (core.capacity.map (·.generation)).getD 0
    revalidationRequired := true }
  let decision := core.expose grant.evidence decision
  { decision with explanation := decision.explanation.add grant.binding }

/-- Write a refusal and settle it. -/
def finishRefusal (core : EngineCore) (decision : AdmissionDecision) (request : AdmissionRequest)
    (recordAttempt : Bool) : Outcome Unit :=
  let record := core.toRecord decision
  (core.writeRecord (.admissionRefused record)).andThen fun _ core =>
    (.ok (), core.settle decision record
      (if recordAttempt then some (core.attemptOf request decision) else none))

/-- The intent of a grant. -/
def prepareOf (core : EngineCore) (decision : AdmissionDecision)
    (amounts : List (ResourceId × Rate)) : PrepareRecord where
  decision := decision.decision
  demand := decision.demand
  attempt := decision.attempt
  fingerprint := decision.requestFingerprint
  epoch := core.epoch
  boundCapacityGeneration := decision.boundCapacityGeneration
  path := decision.selectedPath
  amounts := amounts

/-- The record of a grant whose load is live. -/
def liveRecord (core : EngineCore) (decision : AdmissionDecision) : DecisionRecord :=
  { core.toRecord decision with ledgerLive := true }

/-- Hold the load of a decision in the ledger. -/
def reserveLoad (core : EngineCore) (decision : AdmissionDecision)
    (amounts : List (ResourceId × Rate)) : Outcome Unit :=
  let reserved := core.ledger.reserve decision.decision decision.demand core.epoch
    decision.boundCapacityGeneration decision.selectedPath amounts
  (reserved.1, { core with ledger := reserved.2 })

/-- Write the commit of a decision whose load is held. Without it the load is given back; the
status of that release is ignored. -/
def commitLoad (core : EngineCore) (record : DecisionRecord) : Outcome Unit :=
  match core.writeRecord (.admissionCommit record) with
  | (.ok (), core) => (.ok (), core)
  | (.error status, core) =>
    match core.ledger.release record.decision with
    | .ok (_, ledger) => (.error status, { core with ledger })
    | .error _ => (.error status, core)

/-- Write the intent, reserve, write the commit and settle. -/
def finishAdmission (core : EngineCore) (decision : AdmissionDecision)
    (request : AdmissionRequest) (amounts : List (ResourceId × Rate)) : Outcome Unit :=
  let record := core.liveRecord decision
  (core.writeRecord (.admissionPrepare (core.prepareOf decision amounts))).andThen fun _ core =>
    (core.reserveLoad decision amounts).andThen fun _ core =>
      (core.commitLoad record).andThen fun _ core =>
        (core.settle decision record (some (core.attemptOf request decision))).compactIfNeededLocked

/-- Answer with a decision once it is finished. -/
def answer (decision : AdmissionDecision) (outcome : Outcome Unit) : Outcome AdmissionDecision :=
  outcome.andThen fun _ core => (.ok decision, core)

/-- Refuse a request. -/
def refuse (core : EngineCore) (request : AdmissionRequest) (claim : ClaimContext)
    (reason : Refusal) (evidence : Option Evidence) (recordAttempt : Bool) :
    Outcome AdmissionDecision :=
  let decision := core.refusal request claim reason evidence
  answer decision (core.consumeIdentity.finishRefusal decision request recordAttempt)

/-- The core with one more idempotent replay counted. -/
def countReplay (core : EngineCore) : EngineCore :=
  { core with counters := { core.counters with
      idempotentReplays := core.counters.idempotentReplays + 1 } }

/-- Decide a request and carry the verdict out. -/
def admitLocked (core : EngineCore) (request : AdmissionRequest) (claim : ClaimContext) :
    Outcome AdmissionDecision :=
  match core.verdict request claim with
  | .refuse reason evidence recordAttempt =>
    core.refuse request claim reason evidence recordAttempt
  | .retired reason => core.countReplay.refuse request claim reason none false
  | .replay decision => (.ok decision, core.countReplay)
  | .grant grant =>
    let decision := core.admission request claim grant
    answer decision (core.consumeIdentity.finishAdmission decision request
      (grant.targets.map fun resource => (resource, grant.granted)))

end EngineCore

end AdmissionFabric
