import AdmissionFabric.Engine.Release

/-!
# Accounting enforcement

After an authority that bounds the admitted load is replaced, the enforcement pass walks the
retained decisions from the newest to the oldest and releases every held grant that touches a
resource whose load no longer fits. The pass stops at the first release that fails, with the new
authority already in place.

Source: `src/engine/admission.cpp`.
-/

namespace AdmissionFabric

namespace EnforcementTrigger

/-- The reason that a pass gives for its revocations. -/
def reason : EnforcementTrigger → RevocationReason
  | .reservationPublication => .obligationChange
  | .policyPublication => .policyChange
  | .restartRecovery => .coordinatorRestart
  | .capacityPublication | .none => .capacityReduction

end EnforcementTrigger

/-- The number of resources where headroom and obligations alone exceed the usable capacity. -/
def Authority.infeasibleResources (authority : Authority) (snapshot : CapacitySnapshot) : Nat :=
  (snapshot.resources.filter fun entry => entry.evidence = .known ∧
    satAdd (authority.obligationsFor entry.resource) (authority.headroomFor entry)
      > entry.usable).length

namespace EngineCore

/-- The first entry of a grant that no longer fits. -/
def checkFits (core : EngineCore) (held : List LedgerEntry) : Except BindingConstraint Unit :=
  held.forM (core.checkEntry core.ledger
    "owned load touches a resource whose capacity is UNKNOWN"
    ("admitted load plus obligations and headroom exceeds authoritative " ++
      "usable capacity; revoking newest first"))

/-- The report after one more revocation. -/
def reportRevoked (report : ReconciliationReport) (decision : AdmissionDecisionId)
    (held : List LedgerEntry) (note : BindingConstraint) : ReconciliationReport :=
  { report with
    revokedDecisions := report.revokedDecisions ++ [decision]
    constraints := report.constraints ++ [note]
    revoked := report.revoked + 1
    released := satAdd report.released
      (({} : SumLatch).addAll (held.map (·.amount))).saturatedTotal }

/-- The body of the pass for one record. `held` lists what each decision held when the pass
began; a decision that the pass has revoked is no longer in that index. -/
def enforceRecord (held : AdmissionDecisionId → List LedgerEntry) (reason : RevocationReason)
    (report : ReconciliationReport) (record : DecisionRecord) (core : EngineCore) :
    Outcome ReconciliationReport :=
  if !record.outcome.isAdmitting ∨ held record.decision = [] ∨
      record.decision ∈ report.revokedDecisions then (.ok report, core)
  else match core.checkFits (held record.decision) with
    | .ok () => (.ok report, core)
    | .error note =>
      let explanation := (core.configureExplanation {}).add note
      (core.releaseDecisionLocked record.decision reason .revoked explanation).andThen
        fun _ core => (.ok (reportRevoked report record.decision (held record.decision) note), core)

/-- Enforce record by record. -/
def enforceRecords (held : AdmissionDecisionId → List LedgerEntry) (reason : RevocationReason) :
    ReconciliationReport → List DecisionRecord → EngineCore → Outcome ReconciliationReport
  | report, [], core => (.ok report, core)
  | report, record :: rest, core =>
    (enforceRecord held reason report record core).andThen fun report core =>
      enforceRecords held reason report rest core

/-- The core after a pass in which every release succeeded. -/
def reconciled (core : EngineCore) (snapshot : CapacitySnapshot) (report : ReconciliationReport) :
    EngineCore :=
  { core with
    toAuthority := core.toAuthority.withPending false
    ledger := core.ledger.clearRevalidationFlags
    reconciliation := { report with
      infeasibleResources := core.infeasibleResources snapshot
      retained := core.ledger.liveDecisions } }

/-- Report, and mark the audit if anything was revoked. -/
def finishEnforcement (core : EngineCore) (snapshot : CapacitySnapshot)
    (report : ReconciliationReport) : Outcome Unit :=
  if report.revoked ≠ 0 then (core.reconciled snapshot report).writeAuditMark
  else (.ok (), core.reconciled snapshot report)

/-- Revoke the newest grants that no longer fit. -/
def enforceAccountingLocked (core : EngineCore) (trigger : EnforcementTrigger) : Outcome Unit :=
  match core.capacity with
  -- nothing can be proven without capacity, so nothing is revoked
  | none => (.ok (), { core with reconciliation := { trigger } })
  | some snapshot =>
    (enforceRecords core.ledger.entriesOf trigger.reason { performed := true, trigger }
      core.history.inAuditOrder.reverse core).andThen fun report core =>
        core.finishEnforcement snapshot report

end EngineCore

end AdmissionFabric
