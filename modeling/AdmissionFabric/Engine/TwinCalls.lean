import AdmissionFabric.Durable.RecordCodec
import AdmissionFabric.Engine.TwinRuns

/-!
# Calls on two engines that are one refusal apart

Every call does the same to both engines. Releases and enforcement passes do so without any
condition; an admission does so if it asks for another attempt and both engines have room for its
decision.
-/

namespace AdmissionFabric

open OrderedMap AttemptRegistry
open Std (ExtTreeMap)

variable {extra : Extra} {core core' : EngineCore}

namespace EngineCore

variable (record : DecisionRecord) {ledger ledger' : AdmittedLoadLedger}
    {result result' : RevalidationResult} {request : AdmissionRequest}

/-! ### Release -/

theorem length_payload_revocation (record record' : RevocationRecord) :
    (JournalRecord.revocation record').payload.length =
      (JournalRecord.revocation record).payload.length :=
  (length_encode_revocation record').trans (length_encode_revocation record).symm

namespace Twin

variable (h : core.Twin extra core')

include h

theorem settleRelease (d : AdmissionDecisionId) (reason : RevocationReason)
    (state : RevalidationState) :
    (core.settleRelease d reason state).Twin extra
      (core'.settleRelease (extra.rename d) reason state) :=
  { h with
    history := by
      refine (h.history.modify d (f := fun record =>
        { record with state, reason, ledgerLive := false }) fun record => ?_).noteRelease
      rfl
    cache := h.cache.erase extra.rename_injective d }

theorem withLedger (hledger : ledger.Twin extra ledger') :
    ({ core with ledger } : EngineCore).Twin extra { core' with ledger := ledger' } :=
  { h with ledger := hledger }

theorem releaseDecisionLocked (d : AdmissionDecisionId) (reason : RevocationReason)
    (state : RevalidationState) (explanation explanation' : Explanation) :
    Outcome.Twin (fun _ _ => True) (Twin extra)
      (core.releaseDecisionLocked d reason state explanation)
      (core'.releaseDecisionLocked (extra.rename d) reason state explanation') := by
  unfold EngineCore.releaseDecisionLocked
  rw [h.ledger.holds d]
  split
  · exact .error _ h
  · have hlength : (JournalRecord.ledgerRelease
          (core'.releaseOf (extra.rename d) reason)).payload.length =
        (JournalRecord.ledgerRelease (core.releaseOf d reason)).payload.length := by
      change (core'.releaseOf _ reason).encode.length = (core.releaseOf d reason).encode.length
      rw [length_encode_release, length_encode_release, releaseOf, releaseOf, h.ledger.entriesOf,
        List.length_map]
    refine (h.writeRecord hlength).andThen (fun _ _ htwin => htwin) ?_
    rintro - - written written' - hwritten
    have hrelease := hwritten.ledger.release d
    revert hrelease
    generalize written.ledger.release d = released
    generalize written'.ledger.release (extra.rename d) = released'
    intro hrelease
    cases hrelease with
    | error status => exact .error status hwritten
    | ok hreleased =>
      refine ((hwritten.withLedger hreleased.2).writeRecord (length_payload_revocation _ _)).andThen
        (fun _ _ htwin => htwin) ?_
      rintro - - marked marked' - hmarked
      exact .ok trivial (hmarked.settleRelease d reason state)

end Twin

/-! ### Revalidation and revocation -/

/-- What a caller is told about a decision, beside its identity and the explanation. -/
structure Finding where
  state : RevalidationState
  reason : RevocationReason
  originalOutcome : AdmissionOutcome
  granted : Rate
  ledgerReleased : Bool
  deriving DecidableEq, Repr

/-- What a revalidation found. -/
def findingOf (result : RevalidationResult) : Finding :=
  ⟨result.state, result.reason, result.originalOutcome, result.granted, result.ledgerReleased⟩

/-- The result of a call under the other name of its decision. -/
structure SameFinding (extra : Extra) (result result' : RevalidationResult) : Prop where
  decision : result'.decision = extra.rename result.decision
  finding : findingOf result' = findingOf result

theorem sameFinding_beginResult (extra : Extra) (core core' : EngineCore)
    (d : AdmissionDecisionId) (record : DecisionRecord) :
    SameFinding extra (core.beginResult d record)
      (core'.beginResult (extra.rename d) (extra.renameRecord record)) := ⟨rfl, rfl⟩

theorem SameFinding.conclude (h : SameFinding extra result result') (state : RevalidationState)
    (reason : RevocationReason) (note note' : BindingConstraint) :
    SameFinding extra (conclude result state reason note)
      (EngineCore.conclude result' state reason note') where
  decision := h.decision
  finding := by
    have hfinding := h.finding
    simp only [findingOf, Finding.mk.injEq] at hfinding
    simp only [findingOf, EngineCore.conclude, hfinding]

/-- Two verdicts of a revalidation that differ in the text of a note at most. -/
inductive SameRevalidation : RevalidationVerdict → RevalidationVerdict → Prop
  | alreadyReleased : SameRevalidation .alreadyReleased .alreadyReleased
  | unheld : SameRevalidation .unheld .unheld
  | revoke (reason : RevocationReason) (note note' : BindingConstraint) :
      SameRevalidation (.revoke reason note) (.revoke reason note')
  | ambiguous : SameRevalidation .ambiguous .ambiguous
  | keep (invalidated : Bool) : SameRevalidation (.keep invalidated) (.keep invalidated)

namespace Twin

variable (h : core.Twin extra core')

include h

theorem checkEntry (unknownDetail exceedsDetail : String) (entry : LedgerEntry) :
    core'.checkEntry core'.ledger unknownDetail exceedsDetail (extra.renameEntry entry) =
      core.checkEntry core.ledger unknownDetail exceedsDetail entry := by
  simp only [Authority.checkEntry, h.authority, h.ledger.admitted]
  rfl

theorem forM_checkEntry (unknownDetail exceedsDetail : String) (entries : List LedgerEntry) :
    (entries.map extra.renameEntry).forM
        (core'.checkEntry core'.ledger unknownDetail exceedsDetail) =
      entries.forM (core.checkEntry core.ledger unknownDetail exceedsDetail) := by
  simp only [List.forM_eq_forM, List.forM_map, h.checkEntry]

theorem checkGrant (d : AdmissionDecisionId) (record : DecisionRecord) :
    core'.checkGrant core'.ledger (extra.renameRecord record) (extra.rename d) =
      core.checkGrant core.ledger record d := by
  simp only [Authority.checkGrant, h.ledger.entriesOf, h.forM_checkEntry]
  rw [h.authority]
  rfl

theorem revalidationVerdict (d : AdmissionDecisionId) (record : DecisionRecord) :
    SameRevalidation (core.revalidationVerdict d record)
      (core'.revalidationVerdict (extra.rename d) (extra.renameRecord record)) := by
  have hflags : ((core.ledger.entriesOf d).map extra.renameEntry).any (·.requiresRevalidation) =
      (core.ledger.entriesOf d).any (·.requiresRevalidation) := by
    rw [List.any_map]
    rfl
  have hstate : (extra.renameRecord record).state = record.state := rfl
  have hepoch : (extra.renameRecord record).epoch = record.epoch := rfl
  have hincarnation : (extra.renameRecord record).incarnation = record.incarnation := rfl
  have hinvalidates : core'.invalidates (extra.renameRecord record) = core.invalidates record := by
    rw [h.authority]
    rfl
  unfold EngineCore.revalidationVerdict
  rw [h.ledger.holds, h.ledger.entriesOf, hflags, h.checkGrant, hinvalidates, hstate, hepoch,
    hincarnation, h.authority]
  split
  · exact .alreadyReleased
  · split
    · exact .unheld
    · split
      · exact .revoke _ _ _
      · split
        · exact .ambiguous
        · cases core.checkGrant core.ledger record d with
          | error found => exact .revoke _ _ _
          | ok _ => exact .keep _

theorem releaseFor (hresult : SameFinding extra result result') :
    Outcome.Twin (SameFinding extra) (Twin extra) (core.releaseFor result)
      (core'.releaseFor result') := by
  obtain ⟨hdecision, hfinding⟩ := hresult
  simp only [findingOf, Finding.mk.injEq] at hfinding
  obtain ⟨hstate, hreason, houtcome, hgranted, -⟩ := hfinding
  unfold EngineCore.releaseFor
  rw [hdecision, hstate, hreason]
  refine (h.releaseDecisionLocked result.decision result.reason result.state _ _).andThen
    (fun _ _ htwin => htwin) ?_
  rintro explanation explanation' released released' - hreleased
  refine .ok ⟨rfl, ?_⟩ hreleased
  simp only [findingOf, houtcome, hgranted]

theorem markInvalidated (hresult : SameFinding extra result result') :
    Outcome.Twin (SameFinding extra) (Twin extra) (core.markInvalidated result)
      (core'.markInvalidated result') := by
  have hfinding := hresult.finding
  simp only [findingOf, Finding.mk.injEq] at hfinding
  obtain ⟨hstate, hreason, -⟩ := hfinding
  refine (h.writeRecord (length_payload_revocation _ _)).andThen (fun _ _ htwin => htwin) ?_
  rintro - - written written' - hwritten
  refine .ok hresult { hwritten with history := ?_ }
  rw [hresult.decision, hstate, hreason]
  exact hwritten.history.modify result.decision fun record => rfl

theorem revalidateLocked (d : AdmissionDecisionId) (claim : ClaimContext) :
    Outcome.Twin (SameFinding extra) (Twin extra) (core.revalidateLocked d claim)
      (core'.revalidateLocked (extra.rename d) claim) := by
  unfold EngineCore.revalidateLocked
  rw [h.history.find d]
  cases core.history.find d with
  | none => exact .error _ h
  | some record =>
    have houtcome : (extra.renameRecord record).outcome = record.outcome := rfl
    simp only [Option.map_some, houtcome]
    split
    · exact .error _ h
    · have hresult := sameFinding_beginResult extra core core' d record
      have hverdict := h.revalidationVerdict d record
      generalize core.revalidationVerdict d record = verdict at hverdict ⊢
      generalize core'.revalidationVerdict (extra.rename d) (extra.renameRecord record) = verdict'
        at hverdict ⊢
      cases hverdict with
      | alreadyReleased => exact .ok (hresult.conclude _ _ _ _) h
      | unheld =>
        refine .ok (hresult.conclude _ _ _ _) { h with history := ?_ }
        exact h.history.modify d fun record => rfl
      | revoke reason note note' => exact h.releaseFor (hresult.conclude _ _ _ _)
      | ambiguous => exact .ok (hresult.conclude _ _ _ _) h
      | keep invalidated =>
        cases invalidated with
        | false => exact .ok (hresult.conclude _ _ _ _) h
        | true => exact h.markInvalidated (hresult.conclude _ _ _ _)

theorem revokeLocked (d : AdmissionDecisionId) (reason : RevocationReason)
    (claim : ClaimContext) :
    Outcome.Twin (SameFinding extra) (Twin extra) (core.revokeLocked d reason claim)
      (core'.revokeLocked (extra.rename d) reason claim) := by
  unfold EngineCore.revokeLocked
  rw [h.history.find d]
  cases core.history.find d with
  | none => exact .error _ h
  | some record =>
    have houtcome : (extra.renameRecord record).outcome = record.outcome := rfl
    have hstate : (extra.renameRecord record).state = record.state := rfl
    have hreason : (extra.renameRecord record).reason = record.reason := rfl
    have hresult := sameFinding_beginResult extra core core' d record
    simp only [Option.map_some, houtcome, hstate, hreason, h.ledger.holds]
    split
    · exact .ok (hresult.conclude _ _ _ _) h
    · split
      · exact .ok (hresult.conclude _ _ _ _) h
      · exact h.releaseFor ⟨rfl, rfl⟩

end Twin

/-! ### Enforcement -/

/-- The reports of two passes that revoked the same. -/
structure SameReport (extra : Extra) (report report' : ReconciliationReport) : Prop where
  revokedDecisions : report'.revokedDecisions = report.revokedDecisions.map extra.rename
  revoked : report'.revoked = report.revoked

theorem enforceRecords_filter (held : AdmissionDecisionId → List LedgerEntry)
    (reason : RevocationReason) (report : ReconciliationReport) (records : List DecisionRecord)
    (core : EngineCore) :
    enforceRecords held reason report (records.filter (·.outcome.isAdmitting)) core =
      enforceRecords held reason report records core := by
  induction records generalizing report core with
  | nil => rfl
  | cons record rest ih =>
    cases hadmitting : record.outcome.isAdmitting with
    | true =>
      rw [List.filter_cons_of_pos (by simp [hadmitting]), enforceRecords, enforceRecords]
      simp only [ih]
    | false =>
      have hpass : enforceRecord held reason report record core = (.ok report, core) := by
        simp [enforceRecord, hadmitting]
      rw [List.filter_cons_of_neg (by simp [hadmitting]), ih, enforceRecords, hpass]
      rfl

namespace Twin

variable {report' report : ReconciliationReport}
    {held held' : AdmissionDecisionId → List LedgerEntry}
    (hheld : ∀ d, held' (extra.rename d) = (held d).map extra.renameEntry)

include hheld

theorem enforceRecord (h : core.Twin extra core') (reason : RevocationReason)
    (hreport : SameReport extra report report') (record : DecisionRecord) :
    Outcome.Twin (SameReport extra) (Twin extra)
      (EngineCore.enforceRecord held reason report record core)
      (EngineCore.enforceRecord held' reason report' (extra.renameRecord record) core') := by
  have houtcome : (extra.renameRecord record).outcome = record.outcome := rfl
  have hdecision : (extra.renameRecord record).decision = extra.rename record.decision := rfl
  have hmem : extra.rename record.decision ∈ report'.revokedDecisions ↔
      record.decision ∈ report.revokedDecisions := by
    rw [hreport.revokedDecisions, List.mem_map_of_injective extra.rename_injective]
  have hfits : core'.checkFits ((held record.decision).map extra.renameEntry) =
      core.checkFits (held record.decision) := h.forM_checkEntry _ _ _
  unfold EngineCore.enforceRecord
  rw [houtcome, hdecision, hheld, hfits]
  simp only [hmem, List.map_eq_nil_iff]
  split
  · exact .ok hreport h
  · cases core.checkFits (held record.decision) with
    | ok _ => exact .ok hreport h
    | error note =>
      refine (h.releaseDecisionLocked record.decision reason .revoked _ _).andThen
        (fun _ _ htwin => htwin) ?_
      rintro - - released released' - hreleased
      refine .ok ⟨?_, ?_⟩ hreleased
      · simp only [reportRevoked, hreport.revokedDecisions, List.map_append, List.map_cons,
          List.map_nil]
      · simp only [reportRevoked, hreport.revoked]

theorem enforceRecords (h : core.Twin extra core') (reason : RevocationReason)
    (hreport : SameReport extra report report') (records : List DecisionRecord) :
    Outcome.Twin (SameReport extra) (Twin extra)
      (EngineCore.enforceRecords held reason report records core)
      (EngineCore.enforceRecords held' reason report' (records.map extra.renameRecord) core') := by
  induction records generalizing report report' core core' with
  | nil => exact .ok hreport h
  | cons record rest ih =>
    refine (h.enforceRecord hheld reason hreport record).andThen (fun _ _ htwin => htwin) ?_
    rintro next next' left left' hnext hleft
    exact ih hleft hnext

end Twin

namespace Twin

variable (h : core.Twin extra core')

include h

theorem withAuthority (authority : Authority) :
    ({ core with toAuthority := authority } : EngineCore).Twin extra
      { core' with toAuthority := authority } :=
  { h with authority := rfl }

theorem writeAuditMark : Outcome.Twin (fun _ _ => True) (Twin extra) core.writeAuditMark
    core'.writeAuditMark := by
  refine h.writeRecord ?_
  change (AuditMarkRecord.encode _).length = (AuditMarkRecord.encode _).length
  simp [AuditMarkRecord.encode, putNat, putU64]

theorem reconciled (snapshot : CapacitySnapshot) (report report' : ReconciliationReport) :
    (core.reconciled snapshot report).Twin extra (core'.reconciled snapshot report') :=
  { h with
    authority := by
      simp only [EngineCore.reconciled]
      rw [h.authority]
    ledger := h.ledger.setFlags false }

theorem enforceAccountingLocked (trigger : EnforcementTrigger) :
    Outcome.Twin (fun _ _ => True) (Twin extra) (core.enforceAccountingLocked trigger)
      (core'.enforceAccountingLocked trigger) := by
  have hcapacity : core'.capacity = core.capacity := by rw [h.authority]
  unfold EngineCore.enforceAccountingLocked
  rw [hcapacity]
  cases core.capacity with
  | none => exact .ok trivial { h with }
  | some snapshot =>
    have hpass : Outcome.Twin (SameReport extra) (Twin extra)
        (EngineCore.enforceRecords core.ledger.entriesOf trigger.reason
          { performed := true, trigger } core.history.inAuditOrder.reverse core)
        (EngineCore.enforceRecords core'.ledger.entriesOf trigger.reason
          { performed := true, trigger } core'.history.inAuditOrder.reverse core') := by
      rw [← enforceRecords_filter, ← enforceRecords_filter core'.ledger.entriesOf,
        List.filter_reverse, List.filter_reverse, h.history.admitting_inAuditOrder,
        ← List.map_reverse]
      exact h.enforceRecords h.ledger.entriesOf trigger.reason ⟨rfl, rfl⟩ _
    refine hpass.andThen (fun _ _ htwin => htwin) ?_
    rintro report report' passed passed' hreport hpassed
    unfold finishEnforcement
    rw [hreport.revoked]
    split
    · exact (hpassed.reconciled snapshot report report').writeAuditMark
    · exact .ok trivial (hpassed.reconciled snapshot report report')

/-! ### Publication and sessions -/

theorem publish (checked : Except Status Bool) {install install' : Outcome Unit}
    (hinstall : Outcome.Twin (fun _ _ => True) (Twin extra) install install') :
    Outcome.Twin (fun _ _ => True) (Twin extra) (core.publish checked install)
      (core'.publish checked install') := by
  rcases checked with status | _ | _
  · exact .error status h
  · exact .ok trivial h
  · exact hinstall

theorem publishBound (authority : Authority) (trigger : EnforcementTrigger) :
    Outcome.Twin (fun _ _ => True) (Twin extra)
      (({ core with toAuthority := authority } : EngineCore).enforceAccountingLocked trigger)
      (({ core' with toAuthority := authority } : EngineCore).enforceAccountingLocked trigger) :=
  (h.withAuthority authority).enforceAccountingLocked trigger

theorem publishPolicy (policy : AdmissionPolicy) :
    Outcome.Twin (fun _ _ => True) (Twin extra) (core.publishPolicy policy)
      (core'.publishPolicy policy) := by
  unfold EngineCore.publishPolicy
  split
  · exact .error _ h
  · rw [h.authority]
    refine h.publish _ ((h.writeRecord rfl).andThen (fun _ _ htwin => htwin) ?_)
    rintro - - written written' - hwritten
    unfold withPolicy
    rw [hwritten.authority]
    exact hwritten.publishBound _ _

theorem publishCapacity (snapshot : CapacitySnapshot) :
    Outcome.Twin (fun _ _ => True) (Twin extra) (core.publishCapacity snapshot)
      (core'.publishCapacity snapshot) := by
  unfold EngineCore.publishCapacity withCapacity
  split
  · exact .error _ h
  · rw [h.authority]
    exact h.publish _ (h.publishBound _ _)

theorem publishReservations (snapshot : ReservationSnapshot) :
    Outcome.Twin (fun _ _ => True) (Twin extra) (core.publishReservations snapshot)
      (core'.publishReservations snapshot) := by
  unfold EngineCore.publishReservations withReservations
  split
  · exact .error _ h
  · rw [h.authority]
    exact h.publish _ (h.publishBound _ _)

theorem publishPaths (catalog : PathCatalog) :
    Outcome.Twin (fun _ _ => True) (Twin extra) (core.publishPaths catalog)
      (core'.publishPaths catalog) := by
  unfold EngineCore.publishPaths withPaths
  split
  · exact .error _ h
  · rw [h.authority]
    exact h.publish _ (.ok trivial (h.withAuthority _))

theorem publishQosCatalog (catalog : QoSClassCatalog) :
    Outcome.Twin (fun _ _ => True) (Twin extra) (core.publishQosCatalog catalog)
      (core'.publishQosCatalog catalog) := by
  unfold EngineCore.publishQosCatalog withQos
  split
  · exact .error _ h
  · rw [h.authority]
    exact h.publish _ (.ok trivial (h.withAuthority _))

theorem publishPriorityCatalog (catalog : PriorityClassCatalog) :
    Outcome.Twin (fun _ _ => True) (Twin extra) (core.publishPriorityCatalog catalog)
      (core'.publishPriorityCatalog catalog) := by
  unfold EngineCore.publishPriorityCatalog withPriorities
  split
  · exact .error _ h
  · rw [h.authority]
    exact h.publish _ (.ok trivial (h.withAuthority _))

theorem invalidateCapacity : Outcome.Twin (fun _ _ => True) (Twin extra) core.invalidateCapacity
    core'.invalidateCapacity := by
  unfold EngineCore.invalidateCapacity
  rw [h.authority]
  exact .ok trivial (h.withAuthority _)

theorem invalidatePaths : Outcome.Twin (fun _ _ => True) (Twin extra) core.invalidatePaths
    core'.invalidatePaths := by
  unfold EngineCore.invalidatePaths
  rw [h.authority]
  exact .ok trivial (h.withAuthority _)

theorem compactLocked (hready : core.journalReady = false) :
    Outcome.Twin (fun _ _ => True) (Twin extra) core.compactLocked core'.compactLocked := by
  have hidle : ∀ core : EngineCore, core.journalReady = false →
      core.compactLocked = (.error ⟨.invalidArgument, "no journal attached"⟩, core) := by
    intro core hready
    unfold EngineCore.compactLocked
    rw [hready]
    cases core.journal with
    | none | some journal => rfl
  rw [hidle core hready, hidle core' (h.journalReady.trans hready)]
  exact .error _ h

theorem registerSession (publisher : PublisherId) (boot : BootId) :
    Outcome.Twin Eq (Twin extra) (core.registerSession publisher boot)
      (core'.registerSession publisher boot) := by
  have hepoch : core'.epoch = core.epoch := by rw [h.authority]
  have hincarnation : core'.incarnation = core.incarnation := by rw [h.authority]
  unfold EngineCore.registerSession
  rw [hepoch, hincarnation, h.sessions, h.config, h.nextSessionNonce]
  split
  · exact .error _ h
  · split
    · exact .error _ h
    · split
      · exact .error _ h
      · exact .ok rfl { h with config := rfl, sessions := rfl, nextSessionNonce := rfl }

theorem retireSession (session : SessionNonce) :
    Outcome.Twin (fun _ _ => True) (Twin extra) (core.retireSession session)
      (core'.retireSession session) := by
  unfold EngineCore.retireSession
  rw [h.sessions]
  split
  · exact .ok trivial { h with sessions := rfl }
  · exact .error _ h

theorem beginNewIncarnation (incarnation : CoordinatorIncarnation) :
    Outcome.Twin (fun _ _ => True) (Twin extra) (core.beginNewIncarnation incarnation)
      (core'.beginNewIncarnation incarnation) := by
  unfold EngineCore.beginNewIncarnation
  rw [h.authority]
  split
  · exact .error _ h
  · have hbegun : ({ core with
          toAuthority := core.toAuthority.withEpoch (core.epoch + 1) incarnation
          sessions := ∅
          nextSessionNonce := 1 } : EngineCore).Twin extra { core' with
        toAuthority := core.toAuthority.withEpoch (core.epoch + 1) incarnation
        sessions := ∅
        nextSessionNonce := 1 } :=
      { h with authority := rfl, sessions := rfl, nextSessionNonce := rfl }
    exact hbegun.writeRecord rfl

theorem advanceTick (ticks : UInt64) :
    (core.advanceTick ticks).Twin extra (core'.advanceTick ticks) := by
  unfold EngineCore.advanceTick
  rw [h.authority]
  exact h.withAuthority _

end Twin

/-! ### Verdicts -/

/-- What a caller is told about a decision, beside its identity and its explanation. -/
structure Shown where
  outcome : AdmissionOutcome
  granted : Rate
  selectedPath : PathId
  idempotentReplay : Bool
  deriving DecidableEq, Repr

/-- What a caller sees of an answer. -/
def shown (decision : AdmissionDecision) : Shown :=
  ⟨decision.outcome, decision.granted, decision.selectedPath, decision.idempotentReplay⟩

theorem shown_renameDecision (extra : Extra) (decision : AdmissionDecision) :
    shown (extra.renameDecision decision) = shown decision := rfl

/-- Two verdicts that are answered alike. -/
inductive SameVerdict : Verdict → Verdict → Prop
  | refuse (refusal : Refusal) (evidence : Option Evidence) (recordAttempt : Bool) :
      SameVerdict (.refuse refusal evidence recordAttempt) (.refuse refusal evidence recordAttempt)
  | retired (refusal : Refusal) : SameVerdict (.retired refusal) (.retired refusal)
  | replay {decision decision' : AdmissionDecision} (h : shown decision' = shown decision) :
      SameVerdict (.replay decision) (.replay decision')
  | grant (grant : Grant) : SameVerdict (.grant grant) (.grant grant)

/-- A request asks for another attempt than the refusal, under another identity. -/
structure Apart (extra : Extra) (request : AdmissionRequest) : Prop where
  key : (request.demand, request.attempt) ≠ (extra.demand, extra.attempt)
  request : request.request ≠ extra.request

namespace Twin

variable (h : core.Twin extra core')

include h

theorem checkFence (claim : ClaimContext) : core'.checkFence claim = core.checkFence claim := by
  have hepoch : core'.epoch = core.epoch := by rw [h.authority]
  have hincarnation : core'.incarnation = core.incarnation := by rw [h.authority]
  simp only [EngineCore.checkFence, fenceRefusal, sessionMatches, hepoch, hincarnation, h.config,
    h.sessions]

theorem classify (hapart : Apart extra request) :
    core'.attempts.classify (probe request) =
      { core.attempts.classify (probe request) with
        existing := extra.renameAttempt (core.attempts.classify (probe request)).existing } := by
  have hdefault : extra.renameAttempt {} = {} := by
    rw [Extra.renameAttempt, extra.rename_eq_zero.mpr rfl]
  have hattempt := h.attempts (probe request).key hapart.key
  have hrequest := h.requests (probe request).request hapart.request
  unfold AttemptRegistry.classify
  rw [hattempt, hrequest]
  cases core.attempts.attempts[(probe request).key]? with
  | none =>
    simp only [Option.map_none]
    split
    · rw [hdefault]
    · rw [hdefault]
  | some existing =>
    have hfingerprint : (extra.renameAttempt existing).fingerprint = existing.fingerprint := rfl
    simp only [Option.map_some, hfingerprint]
    split
    · rfl
    · rfl

theorem replayVerdict (request : AdmissionRequest) (d : AdmissionDecisionId) :
    SameVerdict (core.replayVerdict request d) (core'.replayVerdict request (extra.rename d)) := by
  unfold EngineCore.replayVerdict
  rw [h.cache d, h.history.find d]
  cases core.decisionCache[d]? with
  | some cached => exact .replay rfl
  | none =>
    cases core.history.find d with
    | some record => exact .replay rfl
    | none => exact .retired _

theorem verdict (hapart : Apart extra request) (claim : ClaimContext) :
    SameVerdict (core.verdict request claim) (core'.verdict request claim) := by
  have hevaluate : core'.toAuthority.evaluate core'.ledger request =
      core.toAuthority.evaluate core.ledger request := by
    rw [h.authority]
    exact Authority.evaluate_congr
      ⟨fun r _ => h.ledger.admitted r, fun candidate _ => h.ledger.admittedOnPath candidate.path⟩
  unfold EngineCore.verdict
  rw [h.checkFence, h.classify hapart, hevaluate]
  cases request.validate with
  | error contract => exact .refuse _ _ _
  | ok _ =>
    cases core.checkFence claim with
    | error reason => exact .refuse _ _ _
    | ok _ =>
      dsimp only
      cases (core.attempts.classify (probe request)).disposition with
      | replay => exact h.replayVerdict request _
      | conflict => exact .refuse _ _ _
      | new =>
        cases core.toAuthority.evaluate core.ledger request with
        | error reason => exact .refuse _ _ _
        | ok accepted => exact .grant accepted

/-! ### Decisions and their records -/

theorem newDecision (request : AdmissionRequest) (claim : ClaimContext)
    (outcome : AdmissionOutcome) :
    core'.newDecision request claim outcome =
      extra.renameDecision (core.newDecision request claim outcome) := by
  simp only [EngineCore.newDecision, Extra.renameDecision, h.authority, h.rename_next,
    h.renumber_audit]

theorem expose (evidence : Evidence) (decision : AdmissionDecision) :
    core'.expose evidence (extra.renameDecision decision) =
      extra.renameDecision (core.expose evidence decision) := by
  unfold EngineCore.expose
  rw [h.authority]
  rfl

theorem refusal (request : AdmissionRequest) (claim : ClaimContext) (reason : Refusal)
    (evidence : Option Evidence) :
    core'.refusal request claim reason evidence =
      extra.renameDecision (core.refusal request claim reason evidence) := by
  unfold EngineCore.refusal
  rw [h.newDecision]
  generalize core.newDecision request claim reason.outcome = decision
  cases evidence with
  | none => rfl
  | some evidence =>
    exact h.expose evidence
      { decision with explanation := decision.explanation.add reason.constraint }

theorem admission (request : AdmissionRequest) (claim : ClaimContext) (accepted : Grant) :
    core'.admission request claim accepted =
      extra.renameDecision (core.admission request claim accepted) := by
  have hcapacity : core'.capacity = core.capacity := by rw [h.authority]
  unfold EngineCore.admission
  rw [h.newDecision, hcapacity]
  generalize core.newDecision request claim accepted.outcome = decision
  have hexpose := h.expose accepted.evidence { decision with
    selectedPath := accepted.evidence.path
    selectedPathGeneration := accepted.evidence.pathGeneration
    granted := accepted.granted
    minimumGuaranteed := request.rate.minimum
    boundCapacityGeneration := (core.capacity.map (·.generation)).getD 0
    revalidationRequired := true }
  simp only [Extra.renameDecision] at hexpose ⊢
  rw [hexpose]

theorem toRecord (decision : AdmissionDecision) :
    core'.toRecord (extra.renameDecision decision) =
      extra.renameRecord (core.toRecord decision) := by
  unfold EngineCore.toRecord
  rw [h.authority]
  rfl

theorem attemptOf (request : AdmissionRequest) (decision : AdmissionDecision) :
    core'.attemptOf request (extra.renameDecision decision) =
      extra.renameAttempt (core.attemptOf request decision) := by
  unfold EngineCore.attemptOf
  rw [h.authority]
  rfl

end Twin

/-! ### Admission -/

theorem compactIfNeededLocked_settle (h : core.HasSpace 0) (decision : AdmissionDecision)
    (record : DecisionRecord) (attempt : Option AttemptRecord) :
    (core.settle decision record attempt).compactIfNeededLocked =
      (.ok (), core.settle decision record attempt) := by
  have hjournal : (core.settle decision record attempt).journal = core.journal := rfl
  unfold compactIfNeededLocked
  rw [hjournal]
  cases hold : core.journal with
  | none => rfl
  | some journal =>
    dsimp only
    rw [if_neg]
    rintro ⟨hready, hle⟩
    exact Nat.not_lt.mpr hle (h.frames hready journal hold)

theorem length_payload_commit (record' : DecisionRecord) :
    (JournalRecord.admissionCommit record').payload.length =
      (JournalRecord.admissionCommit record).payload.length :=
  (length_encode_decision record').trans (length_encode_decision record).symm

theorem length_payload_refused (record' : DecisionRecord) :
    (JournalRecord.admissionRefused record').payload.length =
      (JournalRecord.admissionRefused record).payload.length :=
  (length_encode_decision record').trans (length_encode_decision record).symm

namespace SpaciousTwin

variable {frames : Nat}

theorem writeRecord (h : core.SpaciousTwin extra (frames + 1) core')
    {record record' : JournalRecord}
    (hlength : record'.payload.length = record.payload.length) :
    Outcome.Twin (fun _ _ => True) (SpaciousTwin extra frames) (core.writeRecord record)
      (core'.writeRecord record') := by
  have hwritten := h.twin.writeRecord hlength
  exact ⟨hwritten.result, hwritten.core, h.space.writeRecord record, h.space'.writeRecord record'⟩

variable (h : core.SpaciousTwin extra frames core')

include h

theorem consumeIdentity : core.consumeIdentity.SpaciousTwin extra frames core'.consumeIdentity where
  twin := h.twin.consumeIdentity
  space := { h.space with }
  space' := { h.space' with }

theorem withLedger (hledger : ledger.Twin extra ledger') :
    ({ core with ledger } : EngineCore).SpaciousTwin extra frames
      { core' with ledger := ledger' } where
  twin := h.twin.withLedger hledger
  space := { h.space with }
  space' := { h.space' with }

theorem settle (decision : AdmissionDecision) (record : DecisionRecord)
    (attempt : Option AttemptRecord) :
    (core.settle decision record attempt).Twin extra
      (core'.settle (extra.renameDecision decision) (extra.renameRecord record)
        (attempt.map extra.renameAttempt)) :=
  { h.twin with
    history := by
      simp only [EngineCore.settle, DecisionHistory.trimHistory_insert_of_lt h.space.history,
        DecisionHistory.trimHistory_insert_of_lt h.space'.history]
      exact h.twin.history.insert record
    cache := by
      simp only [EngineCore.settle, remember_of_lt h.space.cache, remember_of_lt h.space'.cache]
      exact h.twin.cache.insert extra.rename_injective decision.decision decision
    attempts := by
      intro key hkey
      cases attempt with
      | none => exact h.twin.attempts key hkey
      | some a =>
        simp only [EngineCore.settle, Option.map_some,
          getElem?_attempts_record (Or.inr h.space.attempts),
          getElem?_attempts_record (Or.inr h.space'.attempts)]
        have hsame : (extra.renameAttempt a).key = a.key := rfl
        rw [hsame]
        split
        · rfl
        · exact h.twin.attempts key hkey
    requests := by
      intro id hid
      cases attempt with
      | none => exact h.twin.requests id hid
      | some a =>
        simp only [EngineCore.settle, Option.map_some,
          getElem?_requestFingerprints_record, h.twin.requests id hid]
        rfl }

theorem reserveLoad (decision : AdmissionDecision) (amounts : List (ResourceId × Rate)) :
    Outcome.Twin (fun _ _ => True) (SpaciousTwin extra frames)
      (core.reserveLoad decision amounts)
      (core'.reserveLoad (extra.renameDecision decision) amounts) := by
  have hepoch : core'.epoch = core.epoch := by rw [h.twin.authority]
  obtain ⟨hresult, hledger⟩ := h.twin.ledger.reserve decision.decision decision.demand core.epoch
    decision.boundCapacityGeneration decision.selectedPath amounts
  unfold EngineCore.reserveLoad
  rw [hepoch]
  exact ⟨.of_eq hresult, h.withLedger hledger⟩

omit h in
theorem commitLoad (h : core.SpaciousTwin extra (frames + 1) core') (record : DecisionRecord) :
    Outcome.Twin (fun _ _ => True) (SpaciousTwin extra frames) (core.commitLoad record)
      (core'.commitLoad (extra.renameRecord record)) := by
  have hwrite := h.writeRecord (length_payload_commit record (extra.renameRecord record))
  unfold EngineCore.commitLoad
  generalize core.writeRecord (.admissionCommit record) = written at hwrite ⊢
  generalize core'.writeRecord (.admissionCommit (extra.renameRecord record)) = written'
    at hwrite ⊢
  obtain ⟨result, left⟩ := written
  obtain ⟨result', left'⟩ := written'
  obtain ⟨hresult, hleft⟩ := hwrite
  cases hresult with
  | ok _ => exact .ok trivial hleft
  | error status =>
    have hrelease := hleft.twin.ledger.release record.decision
    have hname : (extra.renameRecord record).decision = extra.rename record.decision := rfl
    dsimp only at hrelease ⊢
    rw [hname]
    generalize left.ledger.release record.decision = released at hrelease ⊢
    generalize left'.ledger.release (extra.rename record.decision) = released' at hrelease ⊢
    cases hrelease with
    | ok hreleased => exact .error status (hleft.withLedger hreleased.2)
    | error _ => exact .error status hleft

omit h in
theorem finishRefusal (h : core.SpaciousTwin extra (frames + 1) core')
    (decision : AdmissionDecision) (request : AdmissionRequest) (recordAttempt : Bool) :
    Outcome.Twin (fun _ _ => True) (Twin extra)
      (core.finishRefusal decision request recordAttempt)
      (core'.finishRefusal (extra.renameDecision decision) request recordAttempt) := by
  unfold EngineCore.finishRefusal
  rw [h.twin.toRecord]
  refine (h.writeRecord (length_payload_refused _ _)).andThen
    (fun _ _ hspacious => hspacious.twin) ?_
  rintro - - written written' - hwritten
  refine .ok trivial ?_
  have hsettled := hwritten.settle decision (core.toRecord decision)
    (if recordAttempt then some (written.attemptOf request decision) else none)
  cases recordAttempt with
  | false => exact hsettled
  | true =>
    simp only [↓reduceIte, Option.map_some, ← hwritten.twin.attemptOf] at hsettled ⊢
    exact hsettled

omit h in
theorem finishAdmission (h : core.SpaciousTwin extra 2 core') (decision : AdmissionDecision)
    (request : AdmissionRequest) (amounts : List (ResourceId × Rate)) :
    Outcome.Twin (fun _ _ => True) (Twin extra)
      (core.finishAdmission decision request amounts)
      (core'.finishAdmission (extra.renameDecision decision) request amounts) := by
  have hrecord : core'.liveRecord (extra.renameDecision decision) =
      extra.renameRecord (core.liveRecord decision) := by
    rw [liveRecord, h.twin.toRecord]
    rfl
  have hlength : (JournalRecord.admissionPrepare
        (core'.prepareOf (extra.renameDecision decision) amounts)).payload.length =
      (JournalRecord.admissionPrepare (core.prepareOf decision amounts)).payload.length :=
    (length_encode_prepare _).trans (length_encode_prepare _).symm
  unfold EngineCore.finishAdmission
  rw [hrecord]
  refine (h.writeRecord hlength).andThen (fun _ _ hspacious => hspacious.twin) ?_
  rintro - - prepared prepared' - hprepared
  refine (hprepared.reserveLoad decision amounts).andThen (fun _ _ hspacious => hspacious.twin) ?_
  rintro - - reserved reserved' - hreserved
  refine (hreserved.commitLoad _).andThen (fun _ _ hspacious => hspacious.twin) ?_
  rintro - - committed committed' - hcommitted
  have hsettled := hcommitted.settle decision (core.liveRecord decision)
    (some (committed.attemptOf request decision))
  rw [Option.map_some, ← hcommitted.twin.attemptOf] at hsettled
  rw [compactIfNeededLocked_settle hcommitted.space, compactIfNeededLocked_settle hcommitted.space']
  exact .ok trivial hsettled

omit h in
theorem answer {decision decision' : AdmissionDecision} (hshown : shown decision' = shown decision)
    {outcome outcome' : Outcome Unit}
    (h : Outcome.Twin (fun _ _ => True) (Twin extra) outcome outcome') :
    Outcome.Twin (fun a b => shown b = shown a) (Twin extra) (answer decision outcome)
      (EngineCore.answer decision' outcome') := by
  refine h.andThen (fun _ _ htwin => htwin) ?_
  rintro - - left left' - hleft
  exact .ok hshown hleft

omit h in
theorem refuse (h : core.SpaciousTwin extra (frames + 1) core') (request : AdmissionRequest)
    (claim : ClaimContext) (reason : Refusal) (evidence : Option Evidence)
    (recordAttempt : Bool) :
    Outcome.Twin (fun a b => shown b = shown a) (Twin extra)
      (core.refuse request claim reason evidence recordAttempt)
      (core'.refuse request claim reason evidence recordAttempt) := by
  unfold EngineCore.refuse
  rw [h.twin.refusal]
  exact answer (shown_renameDecision extra _)
    (h.consumeIdentity.finishRefusal _ request recordAttempt)

omit h in
theorem admitLocked (h : core.SpaciousTwin extra 2 core') (hapart : Apart extra request)
    (claim : ClaimContext) :
    Outcome.Twin (fun a b => shown b = shown a) (Twin extra) (core.admitLocked request claim)
      (core'.admitLocked request claim) := by
  have hverdict := h.twin.verdict hapart claim
  unfold EngineCore.admitLocked
  generalize core.verdict request claim = verdict at hverdict ⊢
  generalize core'.verdict request claim = verdict' at hverdict ⊢
  cases hverdict with
  | refuse reason evidence recordAttempt =>
    exact h.refuse request claim reason evidence recordAttempt
  | retired reason =>
    have hcounted : core.countReplay.SpaciousTwin extra 2 core'.countReplay :=
      ⟨{ h.twin with }, { h.space with }, { h.space' with }⟩
    exact hcounted.refuse request claim reason none false
  | replay hshown => exact .ok hshown { h.twin with }
  | grant accepted =>
    dsimp only
    rw [h.twin.admission]
    exact answer (shown_renameDecision extra _) (h.consumeIdentity.finishAdmission _ request _)

end SpaciousTwin

end EngineCore

end AdmissionFabric
