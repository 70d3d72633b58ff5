import Mathlib.Algebra.Ring.Nat
import Mathlib.Data.List.Sort

/-!
# Identities, generations, epochs and hard bounds

Every identity of the runtime is a tagged 64-bit number whose value `0` is reserved and means
UNKNOWN. Identities that arrive from outside (resources, paths, demands, publishers, ...) are
`UInt64`, as the source has them. The numbers that the coordinator itself counts up (decision
identities, audit sequences, session nonces) are natural numbers, where the source counts in 64
bits. What is proved about them is about lifetimes of fewer than `2 ^ 64` decisions and sessions.

Source: `include/naf/core/identity.hpp`, `include/naf/core/limits.hpp`, `include/naf/version.hpp`.
-/

namespace AdmissionFabric

/-! ### Hard bounds -/

namespace Limits

def maxResources : Nat := 4096
def maxResourceBindings : Nat := 1024
def maxPathCandidates : Nat := 256
def maxPathResources : Nat := 512
def maxPaths : Nat := 4096
def maxObligations : Nat := 16384
def maxQoSClasses : Nat := 256
def maxPriorityClasses : Nat := 64
def maxAllowedClasses : Nat := 256
def maxReservationRefs : Nat := 64
def maxExplanationConstraints : Nat := 48
def maxExplanationBytes : Nat := 8192
def maxEffectiveResources : Nat := 64
def maxAuthorityRefs : Nat := 320
def maxLedgerEntries : Nat := 65536
def maxAttemptRecords : Nat := 65536
def maxDecisionRecords : Nat := 65536
def maxSessionRecords : Nat := 1024
def maxStringBytes : Nat := 96
def maxDetailBytes : Nat := 192
def maxFrameBytes : UInt32 := 0x100000
def minFrameBytes : UInt32 := 24
def maxJournalPayload : Nat := 2 ^ 16
def maxJournalRecords : Nat := 2 ^ 20
def journalCompactAtRecords : Nat := 2 ^ 14

end Limits

/-- The persistence format revision written into every boot record. -/
def formatRevision : UInt16 := 1

/-- The product name written into every boot record. -/
def productName : String := "network-admission-fabric"

/-! ### Identities -/

abbrev AdmissionRequestId := UInt64
abbrev DemandId := UInt64
abbrev ResourceId := UInt64
abbrev PathId := UInt64
abbrev CapacitySnapshotId := UInt64
abbrev ReservationSnapshotId := UInt64
abbrev ReservationId := UInt64
abbrev QoSClassId := UInt64
abbrev PriorityClassId := UInt64
abbrev PolicyId := UInt64
abbrev PublisherId := UInt64
abbrev BootId := UInt64
abbrev AttemptId := UInt64
abbrev FairnessGroupId := UInt64
abbrev TenantId := UInt64
abbrev TraceId := UInt64

/-- Identity of a decision, counted up by the coordinator. -/
abbrev AdmissionDecisionId := Nat

/-- Position of a decision in the audit order, counted up by the coordinator. -/
abbrev AuditSequence := Nat

/-- Nonce of a live session, counted up by the coordinator. -/
abbrev SessionNonce := Nat

/-- Monotonic authority revision; `0` is UNKNOWN and the all-ones value is malformed. -/
abbrev Generation := UInt64

/-- Fabric-wide fencing epoch; `0` is no epoch at all. -/
abbrev FabricEpoch := UInt64

/-- Identity of one coordinator process incarnation. -/
abbrev CoordinatorIncarnation := UInt64

/-- The largest 64-bit value. -/
def maxU64 : UInt64 := 0xFFFFFFFFFFFFFFFF

/-- A generation is well formed when it is neither UNKNOWN nor the malformed maximum. -/
def Generation.isWellFormed (generation : Generation) : Bool :=
  generation ≠ 0 ∧ generation ≠ maxU64

/-- Where a request originated. -/
inductive OriginKind
  | inProcess
  | claimant
  | operator
  | recovery
  | replay
  deriving DecidableEq, Repr

/-- The provenance stamp carried by every externally supplied input. -/
structure Provenance where
  publisher : PublisherId := 0
  boot : BootId := 0
  incarnation : CoordinatorIncarnation := 0
  epoch : FabricEpoch := 0
  attempt : AttemptId := 0
  trace : TraceId := 0
  sequence : UInt64 := 0
  origin : OriginKind := .inProcess
  deriving DecidableEq, Repr

end AdmissionFabric
