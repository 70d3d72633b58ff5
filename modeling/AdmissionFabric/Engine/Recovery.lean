import AdmissionFabric.Engine.Compaction

/-!
# Recovery from the journal

`openDurable` opens the attached journal and rebuilds the durable state: the history, the attempt
registry and the policy frame by frame, then the ledger from every committed intent that was
neither revoked nor released. An intent without a commit is ambiguous and is not restored. The
counters for identities and audit sequences are recomputed from what was replayed.

Every way to refuse a journal is an error path of the replay; a refused recovery keeps what was
replayed before the refusal, and the journal stays ready.

Whether a frame decodes is decided by the decoder on the bytes of its record; what it decodes to
is the record itself, which for records with counters below `2 ^ 64` is what the decoder returns.

Source: `src/engine/engine.cpp`, `include/naf/durable/recovery.hpp`.
-/

namespace AdmissionFabric

open Std (ExtTreeMap)

/-! ### Reports -/

/-- A prepare record whose commit was never observed. -/
structure AmbiguousAttempt where
  prepare : PrepareRecord
  prepareSequence : Nat
  deriving DecidableEq, Repr

/-- How an opening ended. -/
inductive RecoveryOutcome
  | freshStart
  | recovered
  | recoveredWithAmbiguity
  | repairedTornTail
  | refused
  deriving DecidableEq, Repr

/-- What a recovery reports; a status is present exactly when it is an error. -/
structure RecoveryReport where
  outcome : RecoveryOutcome := .freshStart
  status : Option Status := none
  journalPresent : Bool := false
  framesScanned : Nat := 0
  framesReplayed : Nat := 0
  trailingBytesDiscarded : Nat := 0
  corrupt : Bool := false
  recoveredEpoch : FabricEpoch := 0
  epochAdvanced : Bool := false
  auditSequence : AuditSequence := 0
  nextDecisionSequence : AdmissionDecisionId := 1
  history : List DecisionRecord := []
  liveLedger : List LedgerEntry := []
  ambiguous : List AmbiguousAttempt := []
  awaitingAuthorityRepublish : Bool := false
  trigger : EnforcementTrigger := .none

/-- Why a journal is refused, and whether it counts as corrupt. -/
structure RecoveryRefusal where
  status : Status
  corrupt : Bool := false
  deriving DecidableEq, Repr

/-- The report of a refusal. -/
def RecoveryReport.refuse (report : RecoveryReport) (refusal : RecoveryRefusal) :
    RecoveryReport :=
  { report with
    outcome := .refused
    status := some refusal.status
    corrupt := refusal.corrupt }

/-! ### Replay -/

/-- What a replay has restored so far. -/
structure ReplayState where
  history : DecisionHistory
  attempts : AttemptRegistry
  policy : Option AdmissionPolicy := none
  pending : ExtTreeMap AdmissionDecisionId AmbiguousAttempt := ∅
  committedPrepares : ExtTreeMap AdmissionDecisionId PrepareRecord := ∅
  released : List AdmissionDecisionId := []
  recoveredEpoch : FabricEpoch := 0
  maxDecisionSequence : AdmissionDecisionId := 0
  recoveredAudit : AuditSequence := 0
  framesReplayed : Nat := 0
  policyValid : ∀ p ∈ policy, p.validate = .ok ()

namespace ReplayState

/-- Refuse a journal with a frame that does not decode. -/
def decoded {α : Type} (result : Except Status α) : Except RecoveryRefusal Unit :=
  match result with
  | .ok _ => .ok ()
  | .error status => .error { status, corrupt := true }

/-- The attempt that a decision frame stands for. -/
def attemptOf (record : DecisionRecord) : AttemptRecord where
  request := record.request
  demand := record.demand
  demandGeneration := record.demandGeneration
  attempt := record.attempt
  fingerprint := record.fingerprint
  decision := record.decision
  outcome := record.outcome
  recordedTick := record.decidedTick

/-- What both kinds of decision frames do to the state. -/
def replayDecision (state : ReplayState) (record : DecisionRecord) : ReplayState :=
  { state with
    history := state.history.insert record
    maxDecisionSequence := max state.maxDecisionSequence record.decision
    recoveredAudit := max state.recoveredAudit record.audit
    attempts :=
      if record.attempt ≠ 0 ∧ record.fingerprint ≠ 0 then
        state.attempts.record (attemptOf record)
      else state.attempts }

/-- A commit moves the intent of its decision to the committed ones. -/
def replayCommit (state : ReplayState) (record : DecisionRecord) :
    Except RecoveryRefusal ReplayState := do
  let record := { record with
    restoredFromDisk := true
    ledgerLive := record.outcome.isAdmitting ∧ record.state ≠ .revoked }
  match state.pending[record.decision]? with
  | none =>
    rejectIf (record.outcome.isAdmitting = true) {
      status := ⟨.corruptJournal, "commit without a matching prepare record"⟩
      corrupt := true }
    return state.replayDecision record
  | some prepared =>
    return replayDecision { state with
      committedPrepares := state.committedPrepares.insert record.decision prepared.prepare
      pending := state.pending.erase record.decision } record

/-- Restore a refusal. -/
def replayRefused (state : ReplayState) (record : DecisionRecord) : ReplayState :=
  state.replayDecision { record with restoredFromDisk := true, ledgerLive := false }

/-- Restore the end of a grant. -/
def replayRevocation (state : ReplayState) (record : RevocationRecord) : ReplayState :=
  { state with
    history := match state.history.find record.decision with
      | none => state.history
      | some existing => state.history.update record.decision
          { existing with state := record.state, reason := record.reason, ledgerLive := false }
    recoveredAudit := max state.recoveredAudit record.audit }

/-- Restore an epoch. -/
def replayBoot (state : ReplayState) (record : BootRecord) :
    Except RecoveryRefusal ReplayState := do
  rejectIf (record.formatRevision ≠ formatRevision)
    { status := ⟨.unsupported, "journal was written by an incompatible format revision"⟩ }
  rejectIf (record.product ≠ asciiBytes productName)
    { status := ⟨.unsupported, "journal belongs to a different product"⟩ }
  return { state with recoveredEpoch := max state.recoveredEpoch record.epoch }

/-- Restore a policy. -/
def replayPolicy (state : ReplayState) (policy : AdmissionPolicy) :
    Except RecoveryRefusal ReplayState :=
  match h : policy.validate with
  | .error status => .error { status }
  | .ok () => .ok { state with policy := some policy, policyValid := valid_some h }

/-- The effect of one frame that decodes. -/
def replayRecord (state : ReplayState) (frame : JournalFrame) :
    Except RecoveryRefusal ReplayState :=
  match frame.record with
  | .bootEpoch record => do
    decoded (decodeBoot record.encode)
    state.replayBoot record
  | .policyConfig policy => do
    decoded (decodePolicy policy.encode)
    state.replayPolicy policy
  | .admissionPrepare record => do
    decoded (decodePrepare record.encode)
    return { state with pending := state.pending.insert record.decision ⟨record, frame.sequence⟩ }
  | .admissionCommit record => do
    decoded (decodeDecisionRecord record.encode)
    state.replayCommit record
  | .admissionRefused record => do
    decoded (decodeDecisionRecord record.encode)
    return state.replayRefused record
  | .ledgerRelease record => do
    decoded (decodeRelease record.encode)
    return { state with released := state.released ++ [record.decision] }
  | .revocation record => do
    decoded (decodeRevocation record.encode)
    return state.replayRevocation record
  | .auditMark record => do
    decoded (decodeAuditMark record.encode)
    return { state with recoveredAudit := max state.recoveredAudit record.sequence }

/-- Count a frame that was replayed. -/
def countFrame (state : ReplayState) : ReplayState :=
  { state with framesReplayed := state.framesReplayed + 1 }

/-- Replay frames until one is refused; the state is kept as it was before that frame. -/
def replayFrames : ReplayState → List JournalFrame → Except RecoveryRefusal Unit × ReplayState
  | state, [] => (.ok (), state)
  | state, frame :: frames =>
    match state.replayRecord frame with
    | .error refusal => (.error refusal, state)
    | .ok state => state.countFrame.replayFrames frames

/-- Whether the load of a committed intent is live. -/
def isLive (state : ReplayState) (prepare : PrepareRecord) : Bool :=
  match state.history.find prepare.decision with
  | none => false
  | some record => record.outcome.isAdmitting && record.state != .revoked &&
      record.state != .expired && decide (prepare.decision ∉ state.released)

/-- The committed intents whose load is live, in the order of their decisions. -/
def livePrepares (state : ReplayState) : List PrepareRecord :=
  (state.committedPrepares.toList.map Prod.snd).filter state.isLive

end ReplayState

/-- Reserve the load of every live intent. -/
def restoreLedger (ledger : AdmittedLoadLedger) :
    List PrepareRecord → Except Status Unit × AdmittedLoadLedger
  | [] => (.ok (), ledger)
  | prepare :: rest =>
    match ledger.reserve prepare.decision prepare.demand prepare.epoch
        prepare.boundCapacityGeneration prepare.path prepare.amounts with
    | (.error status, ledger) => (.error status, ledger)
    | (.ok (), ledger) => restoreLedger ledger rest

namespace EngineCore

/-- What a replay starts from. -/
def beginReplay (core : EngineCore) : ReplayState where
  history := core.history
  attempts := core.attempts
  policy := core.policy
  policyValid := core.policyValid

/-- The core with the state of a replay, complete or not. -/
def withReplay (core : EngineCore) (state : ReplayState) : EngineCore :=
  { core with
    toAuthority := core.toAuthority.withPolicy state.policy state.policyValid
    history := state.history
    attempts := state.attempts }

/-- Use a journal from now on. -/
def attachJournal (core : EngineCore) (journal : Journal) : Outcome Unit :=
  if core.journalReady then (.error ⟨.alreadyExists, "a journal is already attached"⟩, core)
  else (.ok (), { core with journal := some journal })

theorem attachJournal_fresh (config : EngineConfig) (journal : Journal) :
    (EngineCore.fresh config).attachJournal journal =
      (.ok (), { EngineCore.fresh config with journal := some journal }) := rfl

/-- The epoch under which a coordinator that recovered an epoch continues. -/
def nextEpoch (config : EngineConfig) (recovered : FabricEpoch) :
    Except RecoveryRefusal FabricEpoch := do
  rejectIf (recovered ≠ 0 ∧ config.epoch ≠ 0 ∧ recovered > config.epoch)
    { status := epochAhead }
  if recovered ≠ 0 then do
    rejectIf (recovered + 1 = 0) { status := ⟨.arithmeticOverflow, "fabric epoch is exhausted"⟩ }
    return recovered + 1
  else if config.epoch ≠ 0 then return config.epoch
  else return 1
where
  epochAhead : Status :=
    ⟨.epochMismatch, "journal epoch is ahead of the configured coordinator epoch"⟩

/-- The core that resumes from a complete replay. -/
def resume (core : EngineCore) (state : ReplayState) (epoch : FabricEpoch) : EngineCore :=
  { core with
    toAuthority := core.toAuthority.withEpoch epoch core.incarnation
    audit := state.recoveredAudit
    nextDecisionSequence := state.maxDecisionSequence + 1
    sessions := ∅
    nextSessionNonce := 1 }

/-- How a recovery that was not refused is classified. -/
def classifyRecovery (report : RecoveryReport) : RecoveryOutcome :=
  if report.ambiguous = [] ∧ report.trailingBytesDiscarded = 0 ∧ report.journalPresent then
    .recovered
  else if report.ambiguous ≠ [] then .recoveredWithAmbiguity
  else if report.trailingBytesDiscarded ≠ 0 then .repairedTornTail
  else .freshStart

/-- Resume after the ledger is restored: fence, recompute the counters and write the boot. -/
def finishRecovery (core : EngineCore) (state : ReplayState) (report : RecoveryReport) :
    RecoveryReport × EngineCore :=
  let core := { core with
    ledger := core.ledger.markAllRequiringRevalidation
    history := trimHistory core.history core.ledger }
  let report := { report with
    liveLedger := core.ledger.entries
    history := core.history.inAuditOrder
    auditSequence := state.recoveredAudit }
  match nextEpoch core.config state.recoveredEpoch with
  | .error refusal => (report.refuse refusal, core)
  | .ok epoch =>
    let report := { report with
      recoveredEpoch := epoch
      epochAdvanced := state.recoveredEpoch ≠ 0
      nextDecisionSequence := state.maxDecisionSequence + 1 }
    match (core.resume state epoch).writeBoot with
    | (.error status, core) => (report.refuse { status }, core)
    | (.ok (), core) =>
      ({ report with
          awaitingAuthorityRepublish := true
          trigger := .restartRecovery
          outcome := classifyRecovery report },
        { core with
          toAuthority := core.toAuthority.withPending (core.ledger.liveDecisions ≠ 0) })

/-- Rebuild the state from the frames of the journal. -/
def recoverFrames (core : EngineCore) (frames : List JournalFrame) (report : RecoveryReport) :
    RecoveryReport × EngineCore :=
  match core.beginReplay.replayFrames frames with
  | (.error refusal, state) =>
    ({ report with framesReplayed := state.framesReplayed }.refuse refusal, core.withReplay state)
  | (.ok (), state) =>
    let report := { report with
      framesReplayed := state.framesReplayed
      ambiguous := state.pending.toList.map Prod.snd }
    let core := core.withReplay state
    match restoreLedger core.ledger state.livePrepares with
    | (.error status, ledger) => (report.refuse { status }, { core with ledger })
    | (.ok (), ledger) => { core with ledger }.finishRecovery state report

/-- The report on a journal that was opened. -/
def scanReport (scan : JournalScanResult) : RecoveryReport where
  journalPresent := !scan.created
  framesScanned := scan.frames
  trailingBytesDiscarded := scan.truncatedTailBytes

/-- Open the journal and recover from it. -/
def openDurable (core : EngineCore) : RecoveryReport × EngineCore :=
  match core.journal with
  | none => (({} : RecoveryReport).refuse
      { status := ⟨.invalidArgument, "no journal attached"⟩ }, core)
  | some journal =>
    match journal.openFile with
    | (.error status, journal) => (({} : RecoveryReport).refuse
        { status, corrupt := status.code = .corruptJournal }, { core with journal := some journal })
    | (.ok (), journal) =>
      let core := { core with journal := some journal, journalReady := true }
      let report := scanReport journal.scan
      match journal.replay Limits.maxJournalRecords journal.options.maxFileBytes with
      | .error status => (report.refuse { status, corrupt := true }, core)
      | .ok frames => core.recoverFrames frames report

end EngineCore

end AdmissionFabric
