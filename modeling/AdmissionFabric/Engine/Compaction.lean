import AdmissionFabric.Engine.Core

/-!
# Journal compaction

Compaction rewrites the journal to what must survive a restart: the fencing epoch, the policy,
the retained decision history and, for every grant that is still live, its intent and its commit.
A record of an admission whose grant is no longer live is rewritten as a refusal frame, with its
outcome and its state unchanged.

Source: `src/engine/engine.cpp`.
-/

namespace AdmissionFabric

namespace AdmittedLoadLedger

/-- The entries of one decision, in the order of the entry listing. -/
def entriesOf (ledger : AdmittedLoadLedger) (decision : AdmissionDecisionId) :
    List LedgerEntry :=
  ledger.entries.filter (·.decision = decision)

/-- The amounts that a decision holds. -/
def liveAmounts (ledger : AdmittedLoadLedger) (decision : AdmissionDecisionId) :
    List (ResourceId × Rate) :=
  (ledger.entriesOf decision).map fun entry => (entry.resource, entry.amount)

end AdmittedLoadLedger

namespace EngineCore

/-- The intent of a retained record, rebuilt from the amounts it holds. -/
def compactedPrepare (record : DecisionRecord) (amounts : List (ResourceId × Rate)) :
    PrepareRecord where
  decision := record.decision
  demand := record.demand
  attempt := record.attempt
  fingerprint := record.fingerprint
  epoch := record.epoch
  boundCapacityGeneration := record.boundCapacityGeneration
  path := record.path
  amounts := amounts

/-- The frames that a retained record is rewritten to. -/
def compactedFrames (ledger : AdmittedLoadLedger) (record : DecisionRecord) :
    List JournalRecord :=
  let amounts := ledger.liveAmounts record.decision
  if record.outcome.isAdmitting ∧ amounts ≠ [] then
    [.admissionPrepare (compactedPrepare record amounts), .admissionCommit record]
  else [.admissionRefused record]

/-- Everything a compaction writes ahead of its audit mark. -/
def compactedState (core : EngineCore) : List JournalRecord :=
  .bootEpoch (makeBootRecord core.epoch core.incarnation) ::
    (core.policy.map JournalRecord.policyConfig).toList ++
    core.history.inAuditOrder.flatMap (compactedFrames core.ledger)

/-- The records that stand for the state. -/
def compactedRecords (core : EngineCore) : List JournalRecord :=
  core.compactedState ++ [.auditMark
    { sequence := core.audit, epoch := core.epoch, frames := core.compactedState.length }]

/-- Replace the journal by the compacted records. -/
def compactLocked (core : EngineCore) : Outcome Unit :=
  match core.journal with
  | none => (.error ⟨.invalidArgument, "no journal attached"⟩, core)
  | some journal =>
    if core.journalReady then
      let compacted := journal.compact core.compactedRecords
      (compacted.1, { core with journal := some compacted.2 })
    else (.error ⟨.invalidArgument, "no journal attached"⟩, core)

/-- Compact once the journal has enough frames. -/
def compactIfNeededLocked (core : EngineCore) : Outcome Unit :=
  match core.journal with
  | none => (.ok (), core)
  | some journal =>
    if core.journalReady ∧ journal.options.compactAtRecords ≤ journal.frameCount then
      core.compactLocked
    else (.ok (), core)

end EngineCore

end AdmissionFabric
