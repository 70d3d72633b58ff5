import AdmissionFabric.Engine.Enforce

/-!
# The status of the fabric

`statusLocked` summarises the engine: what is published, the counters, the load, and the number of
resources whose authoritative inputs contradict each other.

Source: `include/naf/engine/engine.hpp`, `src/engine/engine.cpp`.
-/

namespace AdmissionFabric

/-- What the engine reports of itself. -/
structure FabricStatus where
  readiness : EngineReadiness := .awaitingPolicy
  epoch : FabricEpoch := 0
  incarnation : CoordinatorIncarnation := 0
  tick : UInt64 := 0
  hasPolicy : Bool := false
  hasCapacity : Bool := false
  hasReservations : Bool := false
  hasPaths : Bool := false
  hasQos : Bool := false
  hasPriority : Bool := false
  policyGeneration : Generation := 0
  capacityGeneration : Generation := 0
  reservationGeneration : Generation := 0
  pathGeneration : Generation := 0
  qosGeneration : Generation := 0
  priorityGeneration : Generation := 0
  capacitySnapshot : CapacitySnapshotId := 0
  reservationSnapshot : ReservationSnapshotId := 0
  auditSequence : AuditSequence := 0
  decisions : Nat := 0
  admissions : Nat := 0
  refusals : Nat := 0
  deferrals : Nat := 0
  idempotentReplays : Nat := 0
  conflicts : Nat := 0
  fences : Nat := 0
  staleRefusals : Nat := 0
  ledgerEntries : Nat := 0
  liveDecisions : Nat := 0
  liveSessions : Nat := 0
  totalAdmitted : Rate := 0
  infeasibleResources : Nat := 0
  durable : Bool := false
  reconciled : Bool := false
  deriving DecidableEq, Repr

/-- The status, with the infeasible resources of the last pass and those of the current inputs. -/
def EngineCore.statusLocked (core : EngineCore) : FabricStatus where
  readiness := core.readiness
  epoch := core.epoch
  incarnation := core.incarnation
  tick := core.tick
  hasPolicy := core.policy.isSome
  hasCapacity := core.capacity.isSome
  hasReservations := core.reservations.isSome
  hasPaths := core.paths.isSome
  hasQos := core.qos.isSome
  hasPriority := core.priorities.isSome
  policyGeneration := (core.policy.map (·.generation)).getD 0
  capacityGeneration := (core.capacity.map (·.generation)).getD 0
  reservationGeneration := (core.reservations.map (·.generation)).getD 0
  pathGeneration := (core.paths.map (·.pathAuthorityGeneration)).getD 0
  qosGeneration := (core.qos.map (·.generation)).getD 0
  priorityGeneration := (core.priorities.map (·.generation)).getD 0
  capacitySnapshot := (core.capacity.map (·.snapshot)).getD 0
  reservationSnapshot := (core.reservations.map (·.snapshot)).getD 0
  auditSequence := core.audit
  decisions := core.counters.decisions
  admissions := core.counters.admissions
  refusals := core.counters.refusals
  deferrals := core.counters.deferrals
  idempotentReplays := core.counters.idempotentReplays
  conflicts := core.counters.conflicts
  fences := core.counters.fences
  staleRefusals := core.counters.staleRefusals
  ledgerEntries := core.ledger.entryCount
  liveDecisions := core.ledger.liveDecisions
  liveSessions := core.sessions.size
  totalAdmitted := (({} : SumLatch).addAll (core.ledger.entries.map (·.amount))).saturatedTotal
  infeasibleResources := core.reconciliation.infeasibleResources +
    match core.capacity with
    | none => 0
    | some snapshot => core.infeasibleResources snapshot
  durable := core.journal.isSome && core.journalReady
  reconciled := !core.pendingReconciliation

end AdmissionFabric
