import AdmissionFabric.Engine.History
import AdmissionFabric.Library.ByteDecoder
import AdmissionFabric.Model.Policy

/-!
# Durable records and their encoding

The records that the coordinator writes to its journal, their byte encodings and the decoders
that recovery runs. A decoder refuses a truncated record, an enumeration code out of range, a
list longer than its own bound, and trailing bytes.

The encoder of a type is `putX` or `encode`; `xDecoder` reads one value, and `decodeX` a whole
payload. An enumeration is encoded by its `code`, and `all` lists its values.

Texts of records are byte strings, as `std::string` is.

Source: `include/naf/durable/records.hpp`, `src/durable/records.cpp`,
`include/naf/core/bytes.hpp`.
-/

namespace AdmissionFabric

open ByteDecoder LittleEndian

/-- The bytes of an ASCII text. -/
def asciiBytes (text : String) : List UInt8 := text.toList.map fun c => UInt8.ofNat c.toNat

/-! ### Records -/

/-- Written once per boot ahead of everything else; carries the fencing epoch. -/
structure BootRecord where
  epoch : FabricEpoch := 0
  formatRevision : UInt16 := 0
  product : List UInt8 := []
  bootNonce : UInt64 := 0
  incarnation : CoordinatorIncarnation := 0
  deriving DecidableEq, Repr

/-- Intent half of the two-phase admission commit. -/
structure PrepareRecord where
  decision : AdmissionDecisionId := 0
  demand : DemandId := 0
  attempt : AttemptId := 0
  fingerprint : UInt64 := 0
  epoch : FabricEpoch := 0
  boundCapacityGeneration : Generation := 0
  path : PathId := 0
  amounts : List (ResourceId × Rate) := []
  deriving DecidableEq, Repr

/-- The load that a decision gave back. -/
structure ReleaseRecord where
  decision : AdmissionDecisionId := 0
  epoch : FabricEpoch := 0
  reason : RevocationReason := .notRevoked
  released : List LedgerEntry := []
  deriving DecidableEq, Repr

/-- The end of a grant. -/
structure RevocationRecord where
  decision : AdmissionDecisionId := 0
  epoch : FabricEpoch := 0
  audit : AuditSequence := 0
  reason : RevocationReason := .notRevoked
  state : RevalidationState := .unknown
  deriving DecidableEq, Repr

/-- The next audit sequence. -/
structure AuditMarkRecord where
  sequence : AuditSequence := 0
  epoch : FabricEpoch := 0
  frames : Nat := 0
  deriving DecidableEq, Repr

/-! ### Enumeration codes -/

def AdmissionOutcome.code : AdmissionOutcome → UInt8
  | .admitted => 0
  | .admitDegraded => 1
  | .defer => 2
  | .rejectCapacity => 3
  | .rejectPolicy => 4
  | .rejectObligation => 5
  | .rejectPath => 6
  | .rejectQoS => 7
  | .staleInput => 8
  | .conflictingInput => 9
  | .fencedClaimant => 10

def RevalidationState.code : RevalidationState → UInt8
  | .fresh => 0
  | .valid => 1
  | .invalidated => 2
  | .revoked => 3
  | .expired => 4
  | .ambiguous => 5
  | .unknown => 6

def RevocationReason.code : RevocationReason → UInt8
  | .notRevoked => 0
  | .operatorRequest => 1
  | .generationAdvance => 2
  | .capacityReduction => 3
  | .pathRevoked => 4
  | .policyChange => 5
  | .claimantDeath => 6
  | .coordinatorRestart => 7
  | .obligationChange => 8
  | .expired => 9

def ContentionAction.code : ContentionAction → UInt8
  | .defer => 0
  | .reject => 1

/-- The value with a given code, if the code is in range. -/
def ofCode {α : Type} (code : α → UInt8) (values : List α) (c : UInt8) : Option α :=
  values.find? (code · = c)

def AdmissionOutcome.all : List AdmissionOutcome :=
  [.admitted, .admitDegraded, .defer, .rejectCapacity, .rejectPolicy, .rejectObligation,
    .rejectPath, .rejectQoS, .staleInput, .conflictingInput, .fencedClaimant]

def RevalidationState.all : List RevalidationState :=
  [.fresh, .valid, .invalidated, .revoked, .expired, .ambiguous, .unknown]

def RevocationReason.all : List RevocationReason :=
  [.notRevoked, .operatorRequest, .generationAdvance, .capacityReduction, .pathRevoked,
    .policyChange, .claimantDeath, .coordinatorRestart, .obligationChange, .expired]

def ContentionAction.all : List ContentionAction := [.defer, .reject]

theorem ofCode_outcome (o : AdmissionOutcome) :
    ofCode AdmissionOutcome.code AdmissionOutcome.all o.code = some o := by
  cases o <;> rfl

theorem ofCode_state (s : RevalidationState) :
    ofCode RevalidationState.code RevalidationState.all s.code = some s := by
  cases s <;> rfl

theorem ofCode_reason (r : RevocationReason) :
    ofCode RevocationReason.code RevocationReason.all r.code = some r := by
  cases r <;> rfl

theorem ofCode_action (a : ContentionAction) :
    ofCode ContentionAction.code ContentionAction.all a.code = some a := by
  cases a <;> rfl

/-! ### Writers -/

def putU8 (v : UInt8) : List UInt8 := leBytes 1 v.toNat

def putU16 (v : UInt16) : List UInt8 := leBytes 2 v.toNat

def putU32 (v : UInt32) : List UInt8 := leBytes 4 v.toNat

def putU64 (v : UInt64) : List UInt8 := leBytes 8 v.toNat

/-- A number that the coordinator counts, truncated to 64 bits. -/
def putNat (v : Nat) : List UInt8 := leBytes 8 v

/-- The length of a list, truncated to 32 bits. -/
def putCount (n : Nat) : List UInt8 := leBytes 4 n

def putBool (v : Bool) : List UInt8 := [if v then 1 else 0]

/-- A text with its length in front; one that is too long is not written at all. -/
def putText (v : List UInt8) : List UInt8 :=
  if v.length > Limits.maxStringBytes then [] else leBytes 2 v.length ++ v

/-- The number of `width` bytes at an offset. -/
def getWord (width : Nat) (data : List UInt8) (offset : Nat) : Nat :=
  ofLeBytes ((data.drop offset).take width)

def BootRecord.encode (record : BootRecord) : List UInt8 := List.flatten [
  putU16 record.formatRevision, putText record.product, putU64 record.epoch,
  putU64 record.bootNonce, putU64 record.incarnation]

def AdmissionPolicy.encode (policy : AdmissionPolicy) : List UInt8 := List.flatten [
  putU64 policy.id, putU64 policy.generation, putU64 policy.epoch, putU64 policy.observedTick,
  putU32 policy.headroomPermille, putU64 policy.headroomFloor, putBool policy.allowDegraded,
  putBool policy.allowPreemptibleAdmission, putBool policy.requirePathBinding,
  putBool policy.requireReservationReference, putBool policy.allowPathSubstitution,
  putU8 policy.onContention.code, putCount policy.allowedQos.length,
  policy.allowedQos.flatMap putU64, putCount policy.allowedPriorities.length,
  policy.allowedPriorities.flatMap putU64, putU32 policy.maxExplanationConstraints,
  putU32 policy.maxExplanationBytes, putU32 policy.maxEffectiveResources,
  putU64 policy.deferHorizonTicks]

def putAmount (amount : ResourceId × Rate) : List UInt8 := putU64 amount.1 ++ putU64 amount.2

def PrepareRecord.encode (record : PrepareRecord) : List UInt8 := List.flatten [
  putNat record.decision, putU64 record.demand, putU64 record.attempt, putU64 record.fingerprint,
  putU64 record.epoch, putU64 record.boundCapacityGeneration, putU64 record.path,
  putCount record.amounts.length, record.amounts.flatMap putAmount]

def DecisionRecord.encode (record : DecisionRecord) : List UInt8 := List.flatten [
  putNat record.decision, putNat record.audit, putU8 record.outcome.code, putU64 record.request,
  putU64 record.demand, putU64 record.demandGeneration, putU64 record.attempt,
  putU64 record.path, putU64 record.granted, putU64 record.epoch, putU64 record.incarnation,
  putU64 record.decidedTick, putU64 record.fingerprint, putU64 record.boundCapacityGeneration,
  putU64 record.boundPolicyGeneration, putU64 record.boundQosGeneration,
  putU64 record.boundPriorityGeneration, putU64 record.boundPathGeneration,
  putU64 record.boundReservationGeneration, putU8 record.state.code, putU8 record.reason.code,
  putBool record.ledgerLive, putBool record.restoredFromDisk]

def putEntry (entry : LedgerEntry) : List UInt8 := List.flatten [
  putNat entry.decision, putU64 entry.demand, putU64 entry.resource, putU64 entry.amount,
  putU64 entry.path, putU64 entry.epoch, putU64 entry.boundCapacityGeneration,
  putBool entry.requiresRevalidation]

def ReleaseRecord.encode (record : ReleaseRecord) : List UInt8 := List.flatten [
  putNat record.decision, putU64 record.epoch, putU8 record.reason.code,
  putCount record.released.length, record.released.flatMap putEntry]

def RevocationRecord.encode (record : RevocationRecord) : List UInt8 := List.flatten [
  putNat record.decision, putU64 record.epoch, putNat record.audit, putU8 record.reason.code,
  putU8 record.state.code]

def AuditMarkRecord.encode (record : AuditMarkRecord) : List UInt8 := List.flatten [
  putNat record.sequence, putU64 record.epoch, putNat record.frames]

/-! ### Decoders -/

/-- A 64-bit number that the coordinator counts. -/
def nat64 (truncated : Status) : Decoder Status Nat := word 8 truncated

/-- The length of a list, at most `bound`. -/
def count (bound : Nat) (truncated tooLarge : Status) : Decoder Status Nat := do
  let n ← word 4 truncated
  require (n ≤ bound) tooLarge
  return n

/-- The text of a status. -/
def text (invalid : Status) : Decoder Status (List UInt8) := do
  let n ← word 2 invalid
  require (n ≤ Limits.maxStringBytes) invalid
  repeated (u8 invalid) n

/-- An enumeration code, refused when it is out of range. -/
def enumeration {α : Type} (code : α → UInt8) (values : List α) (truncated unrecognised : Status) :
    Decoder Status α := do
  let c ← u8 truncated
  orElse (ofCode code values c) unrecognised

/-- Run a decoder over a whole payload. -/
def decodeAll {α : Type} (d : Decoder Status α) (bytes : List UInt8) : Except Status α :=
  decode (do let a ← d; exhausted (malformed "durable record has trailing bytes"); return a) bytes

def bootDecoder : Decoder Status BootRecord := do
  let truncated := malformed "boot record is truncated"
  let formatRevision ← u16 truncated
  let product ← text (malformed "boot record product is invalid")
  let epoch ← u64 truncated
  let bootNonce ← u64 truncated
  let incarnation ← u64 truncated
  return { epoch, formatRevision, product, bootNonce, incarnation }

def decodeBoot (bytes : List UInt8) : Except Status BootRecord := decodeAll bootDecoder bytes

def policyDecoder : Decoder Status AdmissionPolicy := do
  let truncated := malformed "policy record is truncated"
  let id ← u64 truncated
  let generation ← u64 truncated
  let epoch ← u64 truncated
  let observedTick ← u64 truncated
  let headroomPermille ← u32 truncated
  let headroomFloor ← u64 truncated
  let allowDegraded ← boolean truncated
  let allowPreemptibleAdmission ← boolean truncated
  let requirePathBinding ← boolean truncated
  let requireReservationReference ← boolean truncated
  let allowPathSubstitution ← boolean truncated
  let onContention ← enumeration ContentionAction.code ContentionAction.all truncated
    (malformed "policy contention action is not recognised")
  let qosCount ← count Limits.maxAllowedClasses truncated
    (oversized "policy allowed qos list is too large")
  let allowedQos ← repeated (u64 truncated) qosCount
  let priorityCount ← count Limits.maxAllowedClasses truncated
    (oversized "policy allowed priority list is too large")
  let allowedPriorities ← repeated (u64 truncated) priorityCount
  let maxExplanationConstraints ← u32 truncated
  let maxExplanationBytes ← u32 truncated
  let maxEffectiveResources ← u32 truncated
  let deferHorizonTicks ← u64 truncated
  return {
    id, generation, epoch, observedTick, headroomPermille, headroomFloor, allowDegraded,
    allowPreemptibleAdmission, requirePathBinding, requireReservationReference,
    allowPathSubstitution, onContention, allowedQos, allowedPriorities,
    maxExplanationConstraints, maxExplanationBytes, maxEffectiveResources, deferHorizonTicks }

def decodePolicy (bytes : List UInt8) : Except Status AdmissionPolicy :=
  decodeAll policyDecoder bytes

def amountDecoder (truncated : Status) : Decoder Status (ResourceId × Rate) := do
  let resource ← u64 truncated
  let amount ← u64 truncated
  return (resource, amount)

def prepareDecoder : Decoder Status PrepareRecord := do
  let truncated := malformed "prepare record is truncated"
  let decision ← nat64 truncated
  let demand ← u64 truncated
  let attempt ← u64 truncated
  let fingerprint ← u64 truncated
  let epoch ← u64 truncated
  let boundCapacityGeneration ← u64 truncated
  let path ← u64 truncated
  let n ← count Limits.maxResourceBindings truncated
    (oversized "prepare record has too many amounts")
  let amounts ← repeated (amountDecoder truncated) n
  return { decision, demand, attempt, fingerprint, epoch, boundCapacityGeneration, path, amounts }

def decodePrepare (bytes : List UInt8) : Except Status PrepareRecord :=
  decodeAll prepareDecoder bytes

def decisionDecoder : Decoder Status DecisionRecord := do
  let truncated := malformed "decision record is truncated"
  let decision ← nat64 truncated
  let audit ← nat64 truncated
  let outcome ← enumeration AdmissionOutcome.code AdmissionOutcome.all truncated
    (malformed "decision record outcome is not recognised")
  let request ← u64 truncated
  let demand ← u64 truncated
  let demandGeneration ← u64 truncated
  let attempt ← u64 truncated
  let path ← u64 truncated
  let granted ← u64 truncated
  let epoch ← u64 truncated
  let incarnation ← u64 truncated
  let decidedTick ← u64 truncated
  let fingerprint ← u64 truncated
  let boundCapacityGeneration ← u64 truncated
  let boundPolicyGeneration ← u64 truncated
  let boundQosGeneration ← u64 truncated
  let boundPriorityGeneration ← u64 truncated
  let boundPathGeneration ← u64 truncated
  let boundReservationGeneration ← u64 truncated
  let state ← enumeration RevalidationState.code RevalidationState.all truncated
    (malformed "decision record revalidation state is not recognised")
  let reason ← enumeration RevocationReason.code RevocationReason.all truncated
    (malformed "decision record revocation reason is not recognised")
  let ledgerLive ← boolean truncated
  let restoredFromDisk ← boolean truncated
  return {
    decision, audit, outcome, request, demand, demandGeneration, attempt, path, granted,
    epoch, incarnation, decidedTick, fingerprint, boundCapacityGeneration,
    boundPolicyGeneration, boundQosGeneration, boundPriorityGeneration, boundPathGeneration,
    boundReservationGeneration, state, reason, ledgerLive, restoredFromDisk }

def decodeDecisionRecord (bytes : List UInt8) : Except Status DecisionRecord :=
  decodeAll decisionDecoder bytes

def entryDecoder (truncated : Status) : Decoder Status LedgerEntry := do
  let decision ← nat64 truncated
  let demand ← u64 truncated
  let resource ← u64 truncated
  let amount ← u64 truncated
  let path ← u64 truncated
  let epoch ← u64 truncated
  let boundCapacityGeneration ← u64 truncated
  let requiresRevalidation ← boolean truncated
  return {
    decision, demand, resource, amount, path, epoch, boundCapacityGeneration,
    requiresRevalidation }

def releaseDecoder : Decoder Status ReleaseRecord := do
  let truncated := malformed "release record is truncated"
  let decision ← nat64 truncated
  let epoch ← u64 truncated
  let reason ← enumeration RevocationReason.code RevocationReason.all truncated
    (malformed "release record reason is not recognised")
  let n ← count Limits.maxResourceBindings truncated
    (oversized "release record has too many entries")
  let released ← repeated (entryDecoder truncated) n
  return { decision, epoch, reason, released }

def decodeRelease (bytes : List UInt8) : Except Status ReleaseRecord :=
  decodeAll releaseDecoder bytes

def revocationDecoder : Decoder Status RevocationRecord := do
  let truncated := malformed "revocation record is truncated"
  let decision ← nat64 truncated
  let epoch ← u64 truncated
  let audit ← nat64 truncated
  let reason ← enumeration RevocationReason.code RevocationReason.all truncated
    (malformed "revocation record reason is not recognised")
  let state ← enumeration RevalidationState.code RevalidationState.all truncated
    (malformed "revocation record state is not recognised")
  return { decision, epoch, audit, reason, state }

def decodeRevocation (bytes : List UInt8) : Except Status RevocationRecord :=
  decodeAll revocationDecoder bytes

def auditMarkDecoder : Decoder Status AuditMarkRecord := do
  let truncated := malformed "audit mark is truncated"
  let sequence ← nat64 truncated
  let epoch ← u64 truncated
  let frames ← nat64 truncated
  return { sequence, epoch, frames }

def decodeAuditMark (bytes : List UInt8) : Except Status AuditMarkRecord :=
  decodeAll auditMarkDecoder bytes

end AdmissionFabric
