import AdmissionFabric.Engine.JournalEffects
import AdmissionFabric.Engine.VerdictSpec

/-!
# The attempt registry after a restart

A restart rebuilds the attempt registry from the decision frames of the journal: every frame with
an attempt and a fingerprint is recorded as an attempt.

In memory some refusals are not recorded as attempts, because they say nothing about the attempt
they name: a broken contract, a reused identity, and a replay whose decision was retired. Their
frames are not told apart from the others. After a restart such a refusal has replaced the decision
that was recorded under the same demand and attempt.
-/

namespace AdmissionFabric

variable {config : EngineConfig} {record : JournalRecord}

/-- What a record does to the attempt registry of a recovery. -/
def attemptStep (registry : AttemptRegistry) (record : JournalRecord) : AttemptRegistry :=
  match record.decision? with
  | some decision =>
    if decision.attempt ≠ 0 ∧ decision.fingerprint ≠ 0 then
      registry.record (ReplayState.attemptOf decision)
    else registry
  | none => registry

/-- The registry that a recovery builds from records. -/
def attemptsIn (capacity : Nat) (records : List JournalRecord) : AttemptRegistry :=
  records.foldl attemptStep { capacity }

theorem attemptsIn_append_singleton (capacity : Nat) (records : List JournalRecord)
    (record : JournalRecord) : attemptsIn capacity (records ++ [record]) =
      attemptStep (attemptsIn capacity records) record := by
  rw [attemptsIn, List.foldl_append]
  rfl

theorem attemptStep_of_none (registry : AttemptRegistry) (h : record.decision? = none) :
    attemptStep registry record = registry := by
  rw [attemptStep, h]

theorem ReplayState.attempts_of_replayFrames {frames : List JournalFrame} {state : ReplayState}
    (h : (EngineCore.fresh config).beginReplay.replayFrames frames = (.ok (), state)) :
    state.attempts = attemptsIn config.attemptCapacity (frames.map JournalFrame.record) := by
  refine replayFrames_induction
    (I := fun done state => state.attempts = attemptsIn config.attemptCapacity done)
    (fun _ _ h => h) (fun done state sequence record state' _ heffect hstate => ?_) h rfl
  rw [attemptsIn_append_singleton, ← hstate]
  cases heffect <;> rfl

namespace EngineCore

open TransitionSystem

theorem attempts_boot {journal : Journal} (h : (boot config journal).1.status = none) :
    (boot config journal).2.attempts = attemptsIn config.attemptCapacity journal.records := by
  obtain ⟨opened, state, ledger, epoch, journal', -, hreplay, -, -, -, heq⟩ :=
    boot_eq_recoveredCore h
  rw [heq]
  exact ReplayState.attempts_of_replayFrames hreplay

/-- The registry in memory is the one that a recovery would build. -/
def AttemptsMirrored (core : EngineCore) : Prop :=
  ∃ journal, core.Attached journal ∧
    core.attempts = attemptsIn core.config.attemptCapacity journal.records

variable {core : EngineCore}

/-! ### Housekeeping -/

theorem AttemptsMirrored.write (h : core.AttemptsMirrored) (hrecord : record.decision? = none)
    {result : Except Status Unit} {journal' : Option Journal}
    (hwrite : writeJournal core.journal core.journalReady record = (result, journal')) :
    ({ core with journal := journal' } : EngineCore).AttemptsMirrored := by
  obtain ⟨journal, hattached, hattempts⟩ := h
  rcases hattached.write hwrite with ⟨-, rfl⟩ | ⟨-, rfl⟩
  · refine ⟨_, hattached.appended record, ?_⟩
    rw [Journal.records_appended, attemptsIn_append_singleton, attemptStep_of_none _ hrecord]
    exact hattempts
  · exact ⟨journal, ⟨rfl, hattached.ready, hattached.clear⟩, hattempts⟩

theorem AttemptsMirrored.congr {core' : EngineCore} (h : core.AttemptsMirrored)
    (hattempts : core'.attempts = core.attempts) (hconfig : core'.config = core.config)
    (hjournal : core'.journal = core.journal) (hready : core'.journalReady = core.journalReady) :
    core'.AttemptsMirrored := by
  obtain ⟨journal, hattached, hmirrored⟩ := h
  exact ⟨journal, ⟨hjournal.trans hattached.journal_eq, hready.trans hattached.ready,
    hattached.clear⟩, by rw [hattempts, hconfig]; exact hmirrored⟩

theorem ofStores_attemptsMirrored : OfStores AttemptsMirrored := fun _ _ hstores h =>
  h.congr (congrArg Stores.attempts hstores) (congrArg Stores.config hstores)
    (congrArg Stores.journal hstores) (congrArg Stores.journalReady hstores)

theorem housekeeping_attemptsMirrored : Housekeeping (fun _ => True) AttemptsMirrored where
  release core d reason explanation _ h := by
    generalize hcall : core.releaseDecisionLocked d reason .revoked explanation = outcome
    cases releaseDecisionLocked_effect hcall with
    | unheld _ => exact h
    | unwritten _ hwrite | stuck _ hwrite _ => exact h.write rfl hwrite
    | unmarked _ hwrite _ hmark | released _ hwrite _ hmark =>
      exact ((h.write rfl hwrite).write rfl hmark).congr rfl rfl rfl rfl
  mark _ _ _ _ _ h := h.congr rfl rfl rfl rfl
  note core record hnote h := by
    refine h.write ?_ rfl
    cases hnote <;> rfl
  clearFlags _ h := h.congr rfl rfl rfl rfl
  steady core core' hstores _ h := ofStores_attemptsMirrored core core' hstores h

/-! ### Admissions -/

/-- The verdict on a request is recorded, and a new decision on it has a fingerprint. -/
def Attempts (core : EngineCore) (request : AdmissionRequest) (claim : ClaimContext) : Prop :=
  match core.verdict request claim with
  | .refuse _ _ recordAttempt => recordAttempt = true ∧ request.fingerprint ≠ 0
  | .retired _ => False
  | .replay _ => True
  | .grant _ => request.fingerprint ≠ 0

theorem attemptStep_of_describes (core : EngineCore) {request : AdmissionRequest}
    {decision : AdmissionDecision} (h : Describes core.tick request decision)
    (hattempt : request.attempt ≠ 0) (hfingerprint : request.fingerprint ≠ 0)
    (registry : AttemptRegistry) (found : DecisionRecord)
    (hrecord : record.decision? = some found)
    (hfound : ReplayState.attemptOf found = ReplayState.attemptOf (core.toRecord decision)) :
    attemptStep registry record = registry.record (core.attemptOf request decision) := by
  have hkept : found.attempt ≠ 0 ∧ found.fingerprint ≠ 0 := by
    have hsame : found.attempt = decision.attempt ∧
        found.fingerprint = decision.requestFingerprint :=
      ⟨congrArg AttemptRecord.attempt hfound, congrArg AttemptRecord.fingerprint hfound⟩
    rw [hsame.1, hsame.2, h.attempt, h.fingerprint]
    exact ⟨hattempt, hfingerprint⟩
  simp only [attemptStep, hrecord, if_pos hkept]
  rw [hfound]
  simp only [ReplayState.attemptOf, toRecord, attemptOf, h.requestId, h.demand,
    h.demandGeneration, h.attempt, h.decidedTick]

theorem AttemptsMirrored.refuse (h : core.AttemptsMirrored) {request : AdmissionRequest}
    (claim : ClaimContext) (reason : Refusal) (evidence : Option Evidence)
    (hattempt : request.attempt ≠ 0) (hfingerprint : request.fingerprint ≠ 0) :
    (core.refuse request claim reason evidence true).2.AttemptsMirrored := by
  obtain ⟨journal, hattached, hattempts⟩ := h
  rw [EngineCore.refuse, answer_snd]
  have hdescribes := core.describes_refusal request claim reason evidence
  generalize hcall : core.consumeIdentity.finishRefusal _ _ _ = outcome
  have hconsumed : core.consumeIdentity.Attached journal :=
    ⟨hattached.journal_eq, hattached.ready, hattached.clear⟩
  cases finishRefusal_effect hcall with
  | unwritten hwrite =>
    rcases hconsumed.write hwrite with ⟨hok, -⟩ | ⟨-, rfl⟩
    · cases hok
    · exact ⟨journal, ⟨rfl, hattached.ready, hattached.clear⟩, hattempts⟩
  | settled hwrite =>
    rcases hconsumed.write hwrite with ⟨-, rfl⟩ | ⟨⟨status, herror⟩, -⟩
    · refine ⟨_, ⟨rfl, hattached.ready, hattached.clear⟩, ?_⟩
      rw [Journal.records_appended, attemptsIn_append_singleton,
        attemptStep_of_describes core.consumeIdentity hdescribes hattempt hfingerprint _ _ rfl rfl]
      exact congrArg (AttemptRegistry.record · _) hattempts
    · cases herror

theorem AttemptsMirrored.grant (h : core.AttemptsMirrored) {request : AdmissionRequest}
    (claim : ClaimContext) (grant : Grant) (hattempt : request.attempt ≠ 0)
    (hfingerprint : request.fingerprint ≠ 0)
    (hroom : ∀ journal ∈ core.journal,
      journal.frameCount + 2 < journal.options.compactAtRecords) :
    (core.consumeIdentity.finishAdmission (core.admission request claim grant) request
      (amountsOf grant)).2.AttemptsMirrored := by
  obtain ⟨journal, hattached, hattempts⟩ := h
  have hdescribes := core.describes_admission request claim grant
  generalize core.admission request claim grant = decision at hdescribes ⊢
  generalize hcall : core.consumeIdentity.finishAdmission _ _ _ = outcome
  have hconsumed : core.consumeIdentity.Attached journal :=
    ⟨hattached.journal_eq, hattached.ready, hattached.clear⟩
  have hmirrored : core.consumeIdentity.AttemptsMirrored := ⟨journal, hconsumed, hattempts⟩
  cases finishAdmission_effect hcall with
  | unprepared hprepare => exact hmirrored.write rfl hprepare
  | unreserved hprepare _ => exact (hmirrored.write rfl hprepare).congr rfl rfl rfl rfl
  | uncommitted hprepare _ hcommit =>
    obtain ⟨prepared, hattached', hattempts'⟩ := hmirrored.write rfl hprepare
    rcases hattached'.write hcommit with ⟨hok, -⟩ | ⟨-, rfl⟩
    · cases hok
    · exact ⟨prepared, ⟨rfl, hattached.ready, hattached'.clear⟩, hattempts'⟩
  | @committed _ _ ledger hprepare _ hcommit =>
    rcases hconsumed.write hprepare with ⟨-, rfl⟩ | ⟨⟨status, herror⟩, -⟩
    · rcases (hconsumed.appended _).write hcommit with ⟨-, rfl⟩ | ⟨⟨status, herror⟩, -⟩
      · have hsettled : (settle { core.consumeIdentity with
            journal := some ((journal.appended (.admissionPrepare
              (core.consumeIdentity.prepareOf decision (amountsOf grant)))).appended
                (.admissionCommit (core.consumeIdentity.liveRecord decision)))
            ledger } decision (core.consumeIdentity.liveRecord decision)
            (some (core.consumeIdentity.attemptOf request decision))).Attached _ :=
          ⟨rfl, hattached.ready, hattached.clear⟩
        rw [hsettled.compactIfNeeded (hroom journal hattached.journal_eq)]
        refine ⟨_, hsettled, ?_⟩
        rw [Journal.records_appended, attemptsIn_append_singleton,
          attemptStep_of_describes core.consumeIdentity hdescribes hattempt hfingerprint _
            (core.consumeIdentity.liveRecord decision) rfl rfl,
          Journal.records_appended, attemptsIn_append_singleton, attemptStep_of_none _ rfl]
        exact congrArg (AttemptRegistry.record · _) hattempts
      · cases herror
    · cases herror

theorem AttemptsMirrored.admitLocked (h : core.AttemptsMirrored) {request : AdmissionRequest}
    {claim : ClaimContext} (hguard : core.Attempts request claim)
    (hroom : ∀ journal ∈ core.journal,
      journal.frameCount + 2 < journal.options.compactAtRecords) :
    (core.admitLocked request claim).2.AttemptsMirrored := by
  unfold Attempts at hguard
  unfold EngineCore.admitLocked
  cases hverdict : core.verdict request claim with
  | refuse reason evidence recordAttempt =>
    rw [hverdict] at hguard
    obtain ⟨rfl, hfingerprint⟩ := hguard
    have hvalid := validate_of_verdict hverdict
    exact h.refuse claim reason evidence (AdmissionRequest.identities_of_validate hvalid).2.2
      hfingerprint
  | retired reason =>
    rw [hverdict] at hguard
    exact hguard.elim
  | replay decision => exact h.congr rfl rfl rfl rfl
  | grant grant =>
    rw [hverdict] at hguard
    have hvalid := (verdict_eq_grant hverdict).1
    simp only [answer_snd]
    exact h.grant claim grant (AdmissionRequest.identities_of_validate hvalid).2.2 hguard hroom

/-! ### Runs -/

instance (core : EngineCore) (request : AdmissionRequest) (claim : ClaimContext) :
    Decidable (core.Attempts request claim) := by
  unfold Attempts
  split <;> infer_instance

/-- Whether an operation neither compacts nor refuses a request without recording it. -/
def RecordsRefusals (core : EngineCore) : Operation → Prop
  | .compactJournal => False
  | .admitRequest request claim => core.Attempts request claim
  | _ => True

instance (core : EngineCore) (operation : Operation) :
    Decidable (core.RecordsRefusals operation) := by
  unfold RecordsRefusals
  split <;> infer_instance

/-- A call on a disk without errors and a journal far from its bound that does not compact and
refuses nothing without recording it. -/
def KeepsAttempts (core : EngineCore) (call : Call) : Prop :=
  call.disk = [] ∧ (∀ journal ∈ core.journal,
    journal.frameCount + 2 < journal.options.compactAtRecords) ∧
    core.RecordsRefusals call.operation

/-- An engine that has opened its journal. -/
def Opened (core : EngineCore) : Prop :=
  ∃ config journal, (boot config journal).1.status = none ∧ core = (boot config journal).2

/-- The registry of an engine with a journal is the one that a recovery would build. -/
def AttemptsDurable (core : EngineCore) : Prop :=
  core.Durable ∧ core.attempts = attemptsIn core.config.attemptCapacity core.records

theorem AttemptsDurable.after (h : core.AttemptsDurable) {call : Call}
    (hguard : core.KeepsAttempts call) : (core.after call).AttemptsDurable := by
  obtain ⟨operation, disk⟩ := call
  obtain ⟨rfl, hroom, hoperation⟩ := hguard
  obtain ⟨journal, hattached⟩ := h.1.attached
  have hmirrored : (core.onDisk []).AttemptsMirrored := by
    refine ⟨journal, hattached, ?_⟩
    rw [← hattached.records_eq, records_onDisk]
    exact h.2
  have hroom' : ∀ journal ∈ (core.onDisk []).journal,
      journal.frameCount + 2 < journal.options.compactAtRecords := by
    intro journal hjournal
    obtain ⟨original, horiginal, rfl⟩ := Option.map_eq_some_iff.mp hjournal
    exact hroom original horiginal
  have hafter : ((core.onDisk []).perform operation).2.AttemptsMirrored := by
    refine housekeeping_attemptsMirrored.perform ofStores_attemptsMirrored hmirrored
      (fun _ _ => trivial) ?_ ?_
    · rintro request claim rfl
      refine hmirrored.admitLocked ?_ hroom'
      have hattempts : core.Attempts request claim := hoperation
      unfold Attempts at hattempts ⊢
      rwa [verdict_onDisk]
    · rintro rfl
      exact hoperation.elim
  obtain ⟨journal', hattached', hattempts⟩ := hafter
  refine ⟨hattached'.durable, ?_⟩
  change ((core.onDisk []).perform operation).2.attempts =
    attemptsIn _ ((core.onDisk []).perform operation).2.records
  rw [hattached'.records_eq]
  exact hattempts

theorem Opened.attemptsDurable (h : core.Opened) : core.AttemptsDurable := by
  obtain ⟨config, journal, hstatus, rfl⟩ := h
  obtain ⟨hdurable, hrecords⟩ := records_boot hstatus
  refine ⟨hdurable, ?_⟩
  have hconfig : (boot config journal).2.config = config := by
    obtain ⟨_, _, _, _, _, -, -, -, -, -, heq⟩ := boot_eq_recoveredCore hstatus
    rw [heq]
    rfl
  rw [attempts_boot hstatus, hconfig, hrecords, attemptsIn_append_singleton,
    attemptStep_of_none _ rfl]

/-- After a run that refuses nothing without recording it, a restart over the whole file classifies
every candidate as the registry in memory did. -/
theorem attempts_of_restart (h : Reachable Opened EngineCore.after KeepsAttempts core)
    {config : EngineConfig} {surviving : Nat} {disk : List DiskOutcome}
    (hcapacity : config.attemptCapacity = core.config.attemptCapacity)
    (hsurviving : ∀ journal ∈ core.journal, totalBytes journal.frames ≤ surviving)
    (hstatus : (core.restart config surviving disk).1.status = none) (candidate : AttemptRecord) :
    (core.restart config surviving disk).2.attempts.classify candidate =
      core.attempts.classify candidate := by
  have hdurable : core.AttemptsDurable :=
    h.invariant (I := AttemptsDurable) (fun _ => Opened.attemptsDurable)
      fun _ _ hcore hguard => hcore.after hguard
  obtain ⟨journal, hjournal, hrecords⟩ := hdurable.1.exists_journal
  have hrestart : core.restart config surviving disk =
      boot config { journal.cut surviving with disk } := by
    rw [restart, hjournal]
  have hwhole : ({ journal.cut surviving with disk } : Journal).records = core.records := by
    rw [hrecords]
    exact congrArg (List.map JournalFrame.record)
      (Journal.frames_cut_of_le (hsurviving journal hjournal))
  rw [hrestart] at hstatus ⊢
  rw [attempts_boot hstatus, hwhole, hcapacity, ← hdurable.2]

section Examples

open SmallFabric

instance (core : EngineCore) (call : Call) : Decidable (core.KeepsAttempts call) := by
  unfold KeepsAttempts
  infer_instance

/-- Announce one resource, admit a request, and submit another one. -/
def attemptRun (second : AdmissionRequest) : List Call :=
  (announce [known 1 1 100] ++ [Operation.admitRequest (request 1 ⟨1, 20, 20⟩ [1]) {},
    .admitRequest second {}]).map fun operation => { operation }

/-- An engine with a decided attempt. -/
def attemptedCore (second : AdmissionRequest) : EngineCore :=
  run EngineCore.after (boot { epoch := 0 } {}).2 (attemptRun second)

/-- The attempt of the first request is a replay after the restart. -/
theorem replay_of_restart :
    ((attemptedCore (request 2 ⟨1, 20, 20⟩ [1])).restart { epoch := 0 } 1000 []).2.attempts.classify
        (probe (request 1 ⟨1, 20, 20⟩ [1])) =
      (attemptedCore (request 2 ⟨1, 20, 20⟩ [1])).attempts.classify
        (probe (request 1 ⟨1, 20, 20⟩ [1])) := by
  have hallowed : Allowed EngineCore.after KeepsAttempts (boot { epoch := 0 } {}).2
      (attemptRun (request 2 ⟨1, 20, 20⟩ [1])) := by
    decide +kernel
  have hstart : Reachable Opened EngineCore.after KeepsAttempts (boot { epoch := 0 } {}).2 :=
    .init ⟨{ epoch := 0 }, {}, by decide +kernel, rfl⟩
  have hreach : Reachable Opened EngineCore.after KeepsAttempts
      (attemptedCore (request 2 ⟨1, 20, 20⟩ [1])) := hstart.run hallowed
  refine attempts_of_restart hreach ?_ ?_ ?_ _ <;> decide +kernel

/-- A second request under the attempt of the first, for another rate. -/
def reusedAttempt : AdmissionRequest := { request 1 ⟨1, 30, 30⟩ [1] with request := 2 }

/-- It is refused as a conflict and changes nothing in memory, but after a restart the first request
is the one that conflicts. -/
theorem conflict_of_restart :
    ((attemptedCore reusedAttempt).attempts.classify
        (probe (request 1 ⟨1, 20, 20⟩ [1]))).disposition = .replay ∧
      ((attemptedCore reusedAttempt).restart { epoch := 0 } 1000 []).1.status = none ∧
      (((attemptedCore reusedAttempt).restart { epoch := 0 } 1000 []).2.attempts.classify
        (probe (request 1 ⟨1, 20, 20⟩ [1]))).disposition = .conflict := by
  refine ⟨?_, ?_, ?_⟩ <;> decide +kernel

end Examples

end EngineCore

end AdmissionFabric
