import AdmissionFabric.Engine.Compaction

/-!
# Release, revalidation and revocation

`releaseDecisionLocked` is the only way a grant leaves the ledger after it was acknowledged: the
release is durable before the ledger changes, and the revocation is durable before the history
does. A call that fails in between keeps what was done before the failure.

Revalidation checks a grant against the current authority. Its verdict is a pure function of the
state; carrying it out releases the grant, marks its record, or changes nothing.

Source: `src/engine/admission.cpp`.
-/

namespace AdmissionFabric

namespace Authority

/-- Whether a resource still carries the load admitted on it. -/
def checkEntry (authority : Authority) (ledger : AdmittedLoadLedger)
    (unknownDetail exceedsDetail : String) (entry : LedgerEntry) :
    Except BindingConstraint Unit :=
  match authority.knownCapacity entry.resource with
  | none => .error (constraintOf .unknownEvidence "resource" entry.resource.toNat unknownDetail)
  | some cap =>
    let allowance := authority.allowance cap entry.resource
    let admitted := ledger.admitted entry.resource
    rejectIf (admitted > allowance)
      { constraintOf .capacity "resource" entry.resource.toNat exceedsDetail with
        required := admitted
        available := allowance }

/-- Whether a current generation differs from the one a record was bound to. -/
def advanced (bound : Generation) (current : Option Generation) : Bool :=
  match current with
  | some generation => bound ≠ generation
  | none => false

/-- Whether any authority advanced past the generation a record was bound to. -/
def invalidates (authority : Authority) (record : DecisionRecord) : Bool :=
  advanced record.boundCapacityGeneration (authority.capacity.map (·.generation)) ||
  advanced record.boundPolicyGeneration (authority.policy.map (·.generation)) ||
  advanced record.boundQosGeneration (authority.qos.map (·.generation)) ||
  advanced record.boundPriorityGeneration (authority.priorities.map (·.generation)) ||
  advanced record.boundReservationGeneration (authority.reservations.map (·.generation)) ||
  advanced record.boundPathGeneration (authority.paths.map (·.pathAuthorityGeneration))

/-- Whether the path that justified a grant is still up. -/
def checkGrantedPath (authority : Authority) (path : PathId) :
    Except (RevocationReason × BindingConstraint) Unit :=
  if path = 0 then .ok ()
  else match authority.findPath path with
    | none => .error (.pathRevoked, constraintOf .path "path" path.toNat
        "the path that justified this grant is no longer published")
    | some fact => rejectIf (fact.state ≠ .up) (.pathRevoked, constraintOf .path "path"
        path.toNat "the path that justified this grant is not up")

/-- The substantive checks of a held grant. A missing authority is a refusal, never a pass. -/
def checkGrant (authority : Authority) (ledger : AdmittedLoadLedger) (record : DecisionRecord)
    (decision : AdmissionDecisionId) : Except (RevocationReason × BindingConstraint) Unit := do
  rejectIf (authority.capacity = none) (.capacityReduction,
    constraintOf .unknownEvidence "capacity_snapshot" 0
      "capacity authority is UNKNOWN; the grant cannot be justified")
  rejectIf (authority.reservations = none ∨ authority.policy = none) (.policyChange,
    constraintOf .unknownEvidence "authority" 0 "obligation or policy authority is UNKNOWN")
  authority.checkGrantedPath record.path
  let checked := (ledger.entriesOf decision).forM (authority.checkEntry ledger
    "capacity for a granted resource is UNKNOWN"
    "admitted load plus obligations and headroom now exceeds authoritative usable capacity")
  checked.mapError fun note => (.capacityReduction, note)

end Authority

namespace DecisionHistory

/-- Change the record of a decision, if it is retained. -/
def modify (history : DecisionHistory) (decision : AdmissionDecisionId)
    (f : DecisionRecord → DecisionRecord) : DecisionHistory :=
  match history.find decision with
  | none => history
  | some existing => history.update decision (f existing)

end DecisionHistory

namespace EngineCore

/-! ### Release -/

/-- What the coordinator forgets about a decision whose load is released. -/
def settleRelease (core : EngineCore) (decision : AdmissionDecisionId) (reason : RevocationReason)
    (state : RevalidationState) : EngineCore :=
  { core with
    history := (core.history.modify decision fun record =>
      { record with state, reason, ledgerLive := false }).noteRelease
    decisionCache := core.decisionCache.erase decision }

/-- The note that a release adds to the explanation of its caller. -/
def releaseNote (decision : AdmissionDecisionId) (reason : RevocationReason)
    (released : List LedgerEntry) : BindingConstraint :=
  { constraintOf .obligation "revocation" decision reason.toText with
    available := (({} : SumLatch).addAll (released.map (·.amount))).saturatedTotal }

/-- The record of a revocation. -/
def revocationOf (core : EngineCore) (decision : AdmissionDecisionId) (reason : RevocationReason)
    (state : RevalidationState) : RevocationRecord where
  decision := decision
  epoch := core.epoch
  audit := core.audit
  reason := reason
  state := state

/-- The record of a release. -/
def releaseOf (core : EngineCore) (decision : AdmissionDecisionId) (reason : RevocationReason) :
    ReleaseRecord where
  decision := decision
  epoch := core.epoch
  reason := reason
  released := core.ledger.entriesOf decision

/-- Release the load of a decision; the result is the explanation with a note added. -/
def releaseDecisionLocked (core : EngineCore) (decision : AdmissionDecisionId)
    (reason : RevocationReason) (state : RevalidationState) (explanation : Explanation) :
    Outcome Explanation :=
  if !core.ledger.holds decision then
    (.error ⟨.notFound, "decision holds no admitted load"⟩, core)
  else
    (core.writeRecord (.ledgerRelease (core.releaseOf decision reason))).andThen fun _ core =>
      match core.ledger.release decision with
      -- the release frame is already durable here, but the ledger still holds the load
      | .error status => (.error status, core)
      | .ok (released, ledger) =>
        let core := { core with ledger }
        (core.writeRecord (.revocation (core.revocationOf decision reason state))).andThen
          fun _ core => (.ok (explanation.add (releaseNote decision reason released)),
            core.settleRelease decision reason state)

/-! ### Revalidation -/

/-- What revalidation finds about a retained admission. -/
inductive RevalidationVerdict
  | alreadyReleased
  | unheld
  | revoke (reason : RevocationReason) (note : BindingConstraint)
  | ambiguous
  | keep (invalidated : Bool)

/-- What revalidation finds, in the order of the source. -/
def revalidationVerdict (core : EngineCore) (decision : AdmissionDecisionId)
    (record : DecisionRecord) : RevalidationVerdict :=
  if record.state = .revoked ∨ record.state = .expired then .alreadyReleased
  else if !core.ledger.holds decision then .unheld
  else if record.epoch ≠ core.epoch ∨ record.incarnation ≠ core.incarnation then
    .revoke .coordinatorRestart (constraintOf .fence "revalidation" decision
      "decision was issued by a previous coordinator incarnation")
  else if (core.ledger.entriesOf decision).any (·.requiresRevalidation) then .ambiguous
  else match core.checkGrant core.ledger record decision with
    | .error (reason, note) => .revoke reason note
    | .ok () => .keep (core.invalidates record)

/-- The result that both revalidation and revocation start from. -/
def beginResult (core : EngineCore) (decision : AdmissionDecisionId) (record : DecisionRecord) :
    RevalidationResult where
  decision := decision
  originalOutcome := record.outcome
  granted := record.granted
  tick := core.tick
  explanation := core.configureExplanation {}
  authority := core.fillAuthority {}

/-- A result with its state, its reason and one more constraint. -/
def conclude (result : RevalidationResult) (state : RevalidationState)
    (reason : RevocationReason) (note : BindingConstraint) : RevalidationResult :=
  { result with state, reason, explanation := result.explanation.add note }

/-- Release the load of a decision on behalf of a result. -/
def releaseFor (core : EngineCore) (result : RevalidationResult) : Outcome RevalidationResult :=
  (core.releaseDecisionLocked result.decision result.reason result.state result.explanation).andThen
    fun explanation core => (.ok { result with explanation, ledgerReleased := true }, core)

/-- Mark a grant whose authority advanced; it keeps its load. -/
def markInvalidated (core : EngineCore) (result : RevalidationResult) :
    Outcome RevalidationResult :=
  (core.writeRecord (.revocation (core.revocationOf result.decision result.reason
      result.state))).andThen fun _ core =>
    (.ok result, { core with
      history := core.history.modify result.decision fun record =>
        { record with state := result.state, reason := result.reason } })

/-- Revalidate a decision; the claim is not looked at. -/
def revalidateLocked (core : EngineCore) (decision : AdmissionDecisionId)
    (_claim : ClaimContext) : Outcome RevalidationResult :=
  match core.history.find decision with
  | none => (.error ⟨.notFound, "decision is not retained in history"⟩, core)
  | some record =>
    if !record.outcome.isAdmitting then
      (.error ⟨.invalidArgument, "decision did not admit traffic and holds no capacity"⟩, core)
    else
      let result := core.beginResult decision record
      match core.revalidationVerdict decision record with
      | .alreadyReleased => (.ok (conclude result record.state record.reason
          (constraintOf .obligation "revalidation" decision
            "decision was already released; nothing further to revoke")), core)
      | .unheld => (.ok (conclude result .revoked .claimantDeath
          (constraintOf .obligation "revalidation" decision
            "decision holds no admitted load in this incarnation")),
          { core with
            history := core.history.modify decision fun record =>
              { record with state := .revoked, reason := .claimantDeath, ledgerLive := false } })
      | .revoke reason note => core.releaseFor (conclude result .revoked reason note)
      | .ambiguous => (.ok (conclude result .ambiguous .notRevoked
          (constraintOf .unknownEvidence "revalidation" decision
            "recovered load has not yet been reconciled against republished capacity")), core)
      | .keep false => (.ok (conclude result .valid .notRevoked
          (constraintOf .none "revalidation" decision
            "authority generations still match the grant")), core)
      | .keep true => core.markInvalidated (conclude result .invalidated .generationAdvance
          (constraintOf .staleGeneration "revalidation" decision
            "authority advanced past the generation this grant was bound to"))

/-! ### Revocation -/

/-- Revoke a decision; the claim is not looked at. -/
def revokeLocked (core : EngineCore) (decision : AdmissionDecisionId) (reason : RevocationReason)
    (_claim : ClaimContext) : Outcome RevalidationResult :=
  match core.history.find decision with
  | none => (.error ⟨.notFound, "decision is not retained in history"⟩, core)
  | some record =>
    let result := core.beginResult decision record
    if !record.outcome.isAdmitting then
      (.ok (conclude result .valid reason (constraintOf .none "revocation" decision
        "decision never admitted traffic; nothing to release")), core)
    else if record.state = .revoked ∨ record.state = .expired ∨ !core.ledger.holds decision then
      (.ok (conclude result .revoked
        (if record.reason ≠ .notRevoked then record.reason else reason)
        (constraintOf .none "revocation" decision
          "decision already holds no admitted load")), core)
    else core.releaseFor { result with state := .revoked, reason }

end EngineCore

end AdmissionFabric
