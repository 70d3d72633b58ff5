import AdmissionFabric.Engine.Consistency

/-!
# What a recovery does

Opening a journal reads its frames and never changes them; a recovery that is not refused ends
with one more boot frame.
-/

namespace AdmissionFabric

namespace Journal

variable {journal opened : Journal}

theorem frames_scanFile (journal : Journal) : journal.scanFile.2.frames = journal.frames := by
  unfold scanFile
  split
  · rfl
  · split <;> rfl

theorem frames_openFile (journal : Journal) : journal.openFile.2.frames = journal.frames := by
  unfold openFile
  split
  · exact frames_scanFile journal.consume
  · rfl

theorem eq_frames_of_replay {maxFrames maxBytes : Nat} {frames : List JournalFrame}
    (h : journal.replay maxFrames maxBytes = .ok frames) : frames = journal.frames := by
  simp only [replay, check_bind_eq_ok_iff, Except.ok.injEq] at h
  exact h.2.2.2.2.symm

end Journal

namespace EngineCore

variable (config : EngineConfig) (options : JournalOptions) (disk : List DiskOutcome)
    {report : RecoveryReport} {core : EngineCore}

/-- The engine whose ledger has just been restored. -/
def restored (core : EngineCore) : EngineCore :=
  { core with
    ledger := core.ledger.markAllRequiringRevalidation
    history := trimHistory core.history core.ledger }

/-- The ways a recovery ends once the ledger is restored: its status and the engine. -/
inductive FinishEffect (core : EngineCore) (state : ReplayState) :
    Option Status → EngineCore → Prop
  | fenced {refusal : RecoveryRefusal}
      (hepoch : nextEpoch core.config state.recoveredEpoch = .error refusal) :
      FinishEffect core state (some refusal.status) core.restored
  | unwritten {epoch : FabricEpoch} {status : Status} {journal : Option Journal}
      (hepoch : nextEpoch core.config state.recoveredEpoch = .ok epoch)
      (hboot : writeJournal core.journal core.journalReady
        (.bootEpoch (makeBootRecord epoch core.incarnation)) = (.error status, journal)) :
      FinishEffect core state (some status) { core.restored.resume state epoch with journal }
  | resumed {epoch : FabricEpoch} {journal : Option Journal}
      (hepoch : nextEpoch core.config state.recoveredEpoch = .ok epoch)
      (hboot : writeJournal core.journal core.journalReady
        (.bootEpoch (makeBootRecord epoch core.incarnation)) = (.ok (), journal)) :
      FinishEffect core state none { core.restored.resume state epoch with
        toAuthority := (core.restored.resume state epoch).toAuthority.withPending
          (core.restored.ledger.liveDecisions ≠ 0)
        journal }

theorem finishRecovery_effect (core : EngineCore) (state : ReplayState)
    (hreport : report.status = none) :
    FinishEffect core state (core.finishRecovery state report).1.status
      (core.finishRecovery state report).2 := by
  unfold finishRecovery
  cases hepoch : nextEpoch core.config state.recoveredEpoch with
  | error refusal =>
    simp only [hepoch]
    exact .fenced hepoch
  | ok epoch =>
    rcases hboot : writeJournal core.journal core.journalReady
      (.bootEpoch (makeBootRecord epoch core.incarnation)) with ⟨status | ⟨⟩, journal⟩
    · have hwrite : (core.restored.resume state epoch).writeBoot = _ :=
        writeRecord_eq (core.restored.resume state epoch) _ hboot
      simp only [hepoch]
      rw [restored] at hwrite
      simp only [hwrite]
      exact .unwritten hepoch hboot
    · have hwrite : (core.restored.resume state epoch).writeBoot = _ :=
        writeRecord_eq (core.restored.resume state epoch) _ hboot
      simp only [hepoch]
      rw [restored] at hwrite
      simp only [hwrite, hreport]
      exact .resumed hepoch hboot

/-- The ways a recovery from frames ends. -/
inductive RecoverEffect (core : EngineCore) (frames : List JournalFrame) :
    Option Status → EngineCore → Prop
  | refused {refusal : RecoveryRefusal} {state : ReplayState}
      (hreplay : core.beginReplay.replayFrames frames = (.error refusal, state)) :
      RecoverEffect core frames (some refusal.status) (core.withReplay state)
  | unrestored {state : ReplayState} {status : Status} {ledger : AdmittedLoadLedger}
      (hreplay : core.beginReplay.replayFrames frames = (.ok (), state))
      (hrestore : restoreLedger core.ledger state.livePrepares = (.error status, ledger)) :
      RecoverEffect core frames (some status) { core.withReplay state with ledger }
  | restored {state : ReplayState} {ledger : AdmittedLoadLedger} {status : Option Status}
      {core' : EngineCore}
      (hreplay : core.beginReplay.replayFrames frames = (.ok (), state))
      (hrestore : restoreLedger core.ledger state.livePrepares = (.ok (), ledger))
      (hfinish : FinishEffect { core.withReplay state with ledger } state status core') :
      RecoverEffect core frames status core'

theorem recoverFrames_effect (core : EngineCore) (frames : List JournalFrame)
    (hreport : report.status = none) :
    RecoverEffect core frames (core.recoverFrames frames report).1.status
      (core.recoverFrames frames report).2 := by
  unfold recoverFrames
  rcases hreplay : core.beginReplay.replayFrames frames with ⟨refusal | ⟨⟩, state⟩
  · exact .refused hreplay
  · rcases hrestore : restoreLedger core.ledger state.livePrepares with ⟨status | ⟨⟩, ledger⟩
    · simp only [withReplay, hrestore]
      exact .unrestored hreplay hrestore
    · simp only [withReplay, hrestore]
      exact .restored hreplay hrestore (finishRecovery_effect _ state hreport)

/-- The ways opening a journal ends. -/
inductive OpenEffect (core : EngineCore) (journal : Journal) : Option Status → EngineCore → Prop
  | unopened {status : Status} {opened : Journal}
      (hopen : journal.openFile = (.error status, opened)) :
      OpenEffect core journal (some status) { core with journal := some opened }
  | unread {opened : Journal} {status : Status} (hopen : journal.openFile = (.ok (), opened)) :
      OpenEffect core journal (some status)
        { core with journal := some opened, journalReady := true }
  | read {opened : Journal} {status : Option Status} {core' : EngineCore}
      (hopen : journal.openFile = (.ok (), opened))
      (hrecover : RecoverEffect { core with journal := some opened, journalReady := true }
        journal.frames status core') :
      OpenEffect core journal status core'

theorem openDurable_effect {journal : Journal} (h : core.journal = some journal) :
    OpenEffect core journal core.openDurable.1.status core.openDurable.2 := by
  unfold openDurable
  rw [h]
  rcases hopen : journal.openFile with ⟨status | ⟨⟩, opened⟩
  · simp only [hopen]
    exact .unopened hopen
  · have hframes : opened.frames = journal.frames := by
      rw [← Journal.frames_openFile journal, hopen]
    simp only [hopen]
    split
    · exact .unread hopen
    · rename_i frames hreplay
      rw [Journal.eq_frames_of_replay hreplay, hframes]
      exact .read hopen (recoverFrames_effect _ _ rfl)

theorem boot_effect (config : EngineConfig) (journal : Journal) :
    OpenEffect { EngineCore.fresh config with journal := some journal } journal
      (boot config journal).1.status (boot config journal).2 :=
  openDurable_effect rfl

/-! ### A new journal -/

theorem Consistent.finish (h : core.Consistent) {state : ReplayState} {status : Option Status}
    {core' : EngineCore} (hfinish : FinishEffect core state status core')
    (hnext : core.nextDecisionSequence ≤ state.maxDecisionSequence + 1)
    (haudit : core.audit ≤ state.recoveredAudit) : core'.Consistent := by
  have hret := DecisionHistory.trimHistory_retires core.history core.ledger
  have hrestored : core.restored.Consistent := by
    refine ⟨h.wellFormed.setFlags true, hret.indexed h.indexed, h.next_pos, ?_, ?_⟩
    · intro d record hfind
      exact h.below d record (hret.find_of_find d record hfind)
    · intro d hd
      change (core.ledger.setFlags true).holds d = true at hd
      rw [AdmittedLoadLedger.holds_setFlags] at hd
      change ∃ record, (trimHistory core.history core.ledger).find d = some record ∧ _
      rw [hret.find_of_holds d hd]
      exact h.admitting d hd
  cases hfinish with
  | fenced _ => exact hrestored
  | unwritten _ _ | resumed _ _ => exact hrestored.mono rfl rfl hnext haudit

theorem Consistent.boot_new :
    (boot config { options, disk }).2.Consistent ∧
      (boot config { options, disk }).2.capacity = none ∧
      (boot config { options, disk }).2.ledger.byDecision = ∅ := by
  let attached : EngineCore :=
    { EngineCore.fresh config with journal := some { options, disk } }
  have heffect : OpenEffect attached { options, disk } attached.openDurable.1.status
      attached.openDurable.2 := openDurable_effect rfl
  change attached.openDurable.2.Consistent ∧ attached.openDurable.2.capacity = none ∧
    attached.openDurable.2.ledger.byDecision = ∅
  generalize attached.openDurable.2 = core, attached.openDurable.1.status = status at heffect ⊢
  have hfresh : attached.Consistent :=
    (Consistent.fresh config).mono rfl rfl le_rfl le_rfl
  cases heffect with
  | unopened _ | unread _ => exact ⟨hfresh.mono rfl rfl le_rfl le_rfl, rfl, rfl⟩
  | @read opened _ _ _ hrecover =>
    -- there is nothing to replay and nothing to restore
    have hopened : ({ attached with journal := some opened, journalReady := true } :
        EngineCore).Consistent := hfresh.mono rfl rfl le_rfl le_rfl
    have hnone : ∀ state : ReplayState, state.committedPrepares = ∅ → state.livePrepares = [] := by
      intro state hstate
      simp [ReplayState.livePrepares, hstate]
    have hflags : ({} : AdmittedLoadLedger).markAllRequiringRevalidation.byDecision = ∅ := by
      simp [AdmittedLoadLedger.markAllRequiringRevalidation, AdmittedLoadLedger.setFlags]
    cases hrecover with
    | refused hreplay => simp [ReplayState.replayFrames] at hreplay
    | unrestored hreplay hrestore =>
      obtain ⟨-, rfl⟩ := Prod.mk.inj hreplay
      rw [hnone _ rfl] at hrestore
      simp [restoreLedger] at hrestore
    | restored hreplay hrestore hfinish =>
      obtain ⟨-, rfl⟩ := Prod.mk.inj hreplay
      obtain ⟨-, rfl⟩ := Prod.mk.inj hrestore
      refine ⟨hopened.finish hfinish le_rfl le_rfl, ?_⟩
      cases hfinish <;> exact ⟨rfl, hflags⟩

theorem find_boot_new (d : AdmissionDecisionId) :
    (boot config { options, disk }).2.history.find d = none := by
  have heffect := boot_effect config { options, disk }
  generalize (boot config { options, disk }).2 = core,
    (boot config { options, disk }).1.status = status at heffect ⊢
  have hfresh : (EngineCore.fresh config).history.find d = none := by
    simp [EngineCore.fresh, DecisionHistory.find]
  cases heffect with
  | unopened _ | unread _ => exact hfresh
  | read _ hrecover =>
    cases hrecover with
    | refused hreplay => simp [ReplayState.replayFrames] at hreplay
    | unrestored hreplay _ =>
      obtain ⟨-, rfl⟩ := Prod.mk.inj hreplay
      exact hfresh
    | @restored state ledger _ _ hreplay _ hfinish =>
      obtain ⟨-, rfl⟩ := Prod.mk.inj hreplay
      have htrimmed : (trimHistory (EngineCore.fresh config).history ledger).find d = none := by
        have hret := DecisionHistory.trimHistory_retires (EngineCore.fresh config).history ledger
        cases hfind : (trimHistory (EngineCore.fresh config).history ledger).find d with
        | none => rfl
        | some record =>
          rw [hret.find_of_find d record hfind] at hfresh
          cases hfresh
      cases hfinish <;> exact htrimmed

end EngineCore

end AdmissionFabric
