import AdmissionFabric.Core.Checked
import AdmissionFabric.Core.Fingerprint

/-!
# Admission decisions and their explanations

A decision carries its outcome, its grant, the exact authority revisions that justified it and a
bounded explanation. The authority vector is duplicate-free and bounded; the explanation drops a
constraint that would exceed either of its bounds and records the omission.

The texts of explanations are ASCII throughout, so the byte bounds of the source are bounds on
the number of characters.

Source: `include/naf/engine/decision.hpp`, `src/engine/decision.cpp`,
`include/naf/authority/authority.hpp`, `src/authority/authority.cpp`.
-/

namespace AdmissionFabric

/-! ### Outcomes -/

/-- The complete admission outcome space. -/
inductive AdmissionOutcome
  | admitted
  | admitDegraded
  | defer
  | rejectCapacity
  | rejectPolicy
  | rejectObligation
  | rejectPath
  | rejectQoS
  | staleInput
  | conflictingInput
  | fencedClaimant
  deriving DecidableEq, Repr

/-- The outcomes that consume capacity. -/
def AdmissionOutcome.isAdmitting : AdmissionOutcome → Bool
  | .admitted | .admitDegraded => true
  | _ => false

/-- State of a decision when re-evaluated against current authority. -/
inductive RevalidationState
  | fresh
  | valid
  | invalidated
  | revoked
  | expired
  | ambiguous
  | unknown
  deriving DecidableEq, Repr

/-- Why a previously admitted demand stopped being valid. -/
inductive RevocationReason
  | notRevoked
  | operatorRequest
  | generationAdvance
  | capacityReduction
  | pathRevoked
  | policyChange
  | claimantDeath
  | coordinatorRestart
  | obligationChange
  | expired
  deriving DecidableEq, Repr

/-- The text of a reason. -/
def RevocationReason.toText : RevocationReason → String
  | .notRevoked => "not_revoked"
  | .operatorRequest => "operator_request"
  | .generationAdvance => "generation_advance"
  | .capacityReduction => "capacity_reduction"
  | .pathRevoked => "path_revoked"
  | .policyChange => "policy_change"
  | .claimantDeath => "claimant_death"
  | .coordinatorRestart => "coordinator_restart"
  | .obligationChange => "obligation_change"
  | .expired => "expired"

/-! ### Explanations -/

/-- What a constraint is about. -/
inductive BindingConstraintKind
  | none
  | requestContract
  | fence
  | identityConflict
  | unknownEvidence
  | staleGeneration
  | policy
  | qosClass
  | priorityClass
  | path
  | capacity
  | headroom
  | obligation
  | admittedLoad
  | degradation
  | durability
  deriving DecidableEq, Repr

/-- One concrete reason a decision came out the way it did. The subject may be a decision, so
its identity is a natural number. -/
structure BindingConstraint where
  kind : BindingConstraintKind := .none
  subject : String := ""
  subjectId : Nat := 0
  required : Rate := 0
  available : Rate := 0
  observed : Generation := 0
  authoritative : Generation := 0
  detail : String := ""
  deriving DecidableEq, Repr

/-- A constraint without figures. -/
def constraintOf (kind : BindingConstraintKind) (subject : String) (id : Nat) (detail : String) :
    BindingConstraint :=
  { kind, subject, subjectId := id, detail }

/-- The leading characters of a text, up to a limit. -/
def bounded (value : String) (limit : Nat) : String :=
  if value.length ≤ limit then value else String.ofList (value.toList.take limit)

/-- Bounded explanation surface. -/
structure Explanation where
  constraints : List BindingConstraint := []
  maxConstraints : Nat := Limits.maxExplanationConstraints
  maxBytes : Nat := Limits.maxExplanationBytes
  bytes : Nat := 0
  omitted : UInt32 := 0
  truncated : Bool := false
  deriving DecidableEq, Repr

namespace Explanation

/-- Set the bounds. -/
def configure (explanation : Explanation) (maxConstraints maxBytes : Nat) : Explanation :=
  { explanation with
    maxConstraints := min (max maxConstraints 1) Limits.maxExplanationConstraints
    maxBytes := min (max maxBytes 64) Limits.maxExplanationBytes }

/-- Add a constraint, or count it as omitted. -/
def add (explanation : Explanation) (constraint : BindingConstraint) : Explanation :=
  let constraint := { constraint with
    subject := bounded constraint.subject Limits.maxStringBytes
    detail := bounded constraint.detail Limits.maxDetailBytes }
  let cost := constraint.subject.length + constraint.detail.length + 96
  if explanation.maxConstraints ≤ explanation.constraints.length ∨
      explanation.maxBytes < explanation.bytes + cost then
    { explanation with
      truncated := true
      omitted := if explanation.omitted ≠ 0xFFFFFFFF then explanation.omitted + 1
        else explanation.omitted }
  else
    { explanation with
      bytes := explanation.bytes + cost
      constraints := explanation.constraints ++ [constraint] }

end Explanation

/-! ### Authority vectors -/

/-- What an authority reference is about. -/
inductive AuthorityKind
  | fabricEpoch
  | coordinatorIncarnation
  | capacitySnapshot
  | reservationSnapshot
  | pathAuthority
  | policy
  | qosClassCatalog
  | priorityClassCatalog
  | resourceCapacity
  | path
  | reservation
  | qosClass
  | priorityClass
  deriving DecidableEq, Repr

/-- The code of a kind in digests and messages. -/
def AuthorityKind.code : AuthorityKind → UInt8
  | .fabricEpoch => 0
  | .coordinatorIncarnation => 1
  | .capacitySnapshot => 2
  | .reservationSnapshot => 3
  | .pathAuthority => 4
  | .policy => 5
  | .qosClassCatalog => 6
  | .priorityClassCatalog => 7
  | .resourceCapacity => 8
  | .path => 9
  | .reservation => 10
  | .qosClass => 11
  | .priorityClass => 12

/-- One authority revision; the subject of a replayed decision is its identity, so subjects are
natural numbers. -/
structure AuthorityRef where
  kind : AuthorityKind
  subject : Nat
  generation : Generation
  epoch : FabricEpoch
  deriving DecidableEq, Repr

/-- Bounded, duplicate-free set of authority references. -/
structure AuthorityVector where
  refs : List AuthorityRef := []
  truncated : Bool := false
  deriving DecidableEq, Repr

namespace AuthorityVector

/-- A reference to the same subject keeps the stronger generation and takes the new epoch. -/
def merge (existing : AuthorityRef) (generation : Generation) (epoch : FabricEpoch) :
    AuthorityRef :=
  { existing with
    generation := if generation > existing.generation then generation else existing.generation
    epoch }

/-- Merge into the first reference to a subject, if there is one. -/
def mergeFirst (kind : AuthorityKind) (subject : Nat) (generation : Generation)
    (epoch : FabricEpoch) : List AuthorityRef → Option (List AuthorityRef)
  | [] => none
  | existing :: rest =>
    if existing.kind = kind ∧ existing.subject = subject then
      some (merge existing generation epoch :: rest)
    else (mergeFirst kind subject generation epoch rest).map (existing :: ·)

/-- Add or replace a reference, or note that it is left out. -/
def add (vector : AuthorityVector) (kind : AuthorityKind) (subject : Nat)
    (generation : Generation) (epoch : FabricEpoch) : AuthorityVector :=
  match vector.refs.getLast? with
  | some last =>
    -- the engine adds subjects in ascending order, so a repeated one is usually the last
    if last.kind = kind ∧ last.subject = subject then
      { vector with refs := vector.refs.dropLast ++ [merge last generation epoch] }
    else addByScan
  | none => addByScan
where
  addByScan : AuthorityVector :=
    match mergeFirst kind subject generation epoch vector.refs with
    | some refs => { vector with refs }
    | none =>
      if vector.refs.length ≥ Limits.maxAuthorityRefs then { vector with truncated := true }
      else { vector with refs := vector.refs ++ [⟨kind, subject, generation, epoch⟩] }

/-- Add a reference that is given as a whole. -/
def addRef (vector : AuthorityVector) (ref : AuthorityRef) : AuthorityVector :=
  vector.add ref.kind ref.subject ref.generation ref.epoch

/-- The order in which references are digested: by kind, then by subject. -/
def refLe (a b : AuthorityRef) : Prop :=
  if a.kind ≠ b.kind then a.kind.code < b.kind.code else a.subject ≤ b.subject

instance : DecidableRel refLe := fun a b => by unfold refLe; infer_instance

/-- The stream of one reference in the digest. -/
def refStream (ref : AuthorityRef) : List UInt8 :=
  Fingerprint.u16 ref.kind.code.toUInt16 ++ LittleEndian.leBytes 8 ref.subject ++
    Fingerprint.u64 ref.generation ++ Fingerprint.u64 ref.epoch

/-- The digest of the references in sorted order. -/
def digest (vector : AuthorityVector) : UInt64 :=
  Fingerprint.ofStream (Fingerprint.separator 0xA1 ++
    (vector.refs.insertionSort refLe).flatMap refStream ++ Fingerprint.boolean vector.truncated)

end AuthorityVector

/-! ### Decisions -/

/-- Per-resource arithmetic exposed with a decision. -/
structure EffectiveResource where
  resource : ResourceId
  generation : Generation
  usable : Rate
  headroom : Rate
  obligations : Rate
  admitted : Rate
  availableForNew : Rate
  deriving DecidableEq, Repr

/-- A complete, self-describing admission result. -/
structure AdmissionDecision where
  decision : AdmissionDecisionId := 0
  audit : AuditSequence := 0
  outcome : AdmissionOutcome := .rejectPolicy
  request : AdmissionRequestId := 0
  demand : DemandId := 0
  demandGeneration : Generation := 0
  attempt : AttemptId := 0
  trace : TraceId := 0
  epoch : FabricEpoch := 0
  incarnation : CoordinatorIncarnation := 0
  decidedTick : UInt64 := 0
  selectedPath : PathId := 0
  selectedPathGeneration : Generation := 0
  granted : Rate := 0
  minimumGuaranteed : Rate := 0
  desired : Rate := 0
  maximum : Rate := 0
  holdingInterval : Duration := 0
  boundCapacityGeneration : Generation := 0
  revalidationRequired : Bool := false
  authority : AuthorityVector := {}
  effective : List EffectiveResource := []
  effectiveTruncated : Bool := false
  explanation : Explanation := {}
  idempotentReplay : Bool := false
  requestFingerprint : UInt64 := 0
  deriving DecidableEq, Repr

/-- What a revalidation or a revocation answers. -/
structure RevalidationResult where
  decision : AdmissionDecisionId := 0
  originalOutcome : AdmissionOutcome := .rejectPolicy
  state : RevalidationState := .unknown
  reason : RevocationReason := .notRevoked
  granted : Rate := 0
  tick : UInt64 := 0
  ledgerReleased : Bool := false
  authority : AuthorityVector := {}
  explanation : Explanation := {}
  deriving DecidableEq, Repr

end AdmissionFabric
