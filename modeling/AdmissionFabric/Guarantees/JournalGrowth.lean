import AdmissionFabric.Engine.JournalEffects
import AdmissionFabric.Engine.VerdictSpec

/-!
# The length of the journal

A recovery reads at most `Limits.maxJournalRecords` frames of a file of at most `maxFileBytes`
bytes, and refuses a longer journal. An append checks neither bound. What keeps the journal short is
the automatic compaction, and only a committed admission runs it. Refusals, publications,
revocations and revalidations add frames and never compact, so a run of refused requests alone makes
the journal longer than what a recovery reads.
-/

namespace AdmissionFabric

variable (core : EngineCore) (decision : AdmissionDecision) (d : AdmissionDecisionId)
  {journal : Journal}

namespace Journal

theorem openFile_of_whole (journal : Journal) (hdisk : journal.disk = [])
    (htorn : journal.tornBytes = 0)
    (hbytes : totalBytes journal.frames ≤ journal.options.maxFileBytes)
    (hpayload : ∀ frame ∈ journal.frames,
      frame.record.payload.length ≤ journal.options.maxPayload) :
    ∃ opened, journal.openFile = (.ok (), opened) ∧ opened.frames = journal.frames ∧
      opened.tornBytes = 0 ∧ opened.options = journal.options ∧ opened.isOpen = true := by
  have hsize : ¬ totalBytes journal.frames + journal.tornBytes > journal.options.maxFileBytes := by
    omega
  have hlarge : (journal.frames.any fun frame =>
      decide (frame.record.payload.length > journal.options.maxPayload)) = false := by
    rw [List.any_eq_false]
    intro frame hframe
    simpa using hpayload frame hframe
  simp [openFile, nextOutcome, hdisk, consume, scanFile, hsize, hlarge]

/-! ### The size of a file -/

/-- The number of bytes of the file. -/
def fileBytes (journal : Journal) : Nat := totalBytes journal.frames + journal.tornBytes

/-- The size of the largest frame that is appended. -/
def frameBound (journal : Journal) : Nat := journalOverheadBytes + journal.options.maxPayload

/-- The file is within the bounds of a recovery. -/
structure Readable (journal : Journal) : Prop where
  frames_le : journal.frames.length ≤ Limits.maxJournalRecords
  bytes_le : journal.fileBytes ≤ journal.options.maxFileBytes

/-- The file stays within the bounds with a number of frames of any size added. -/
def HasRoom (journal : Journal) (n : Nat) : Prop :=
  journal.frames.length + n ≤ Limits.maxJournalRecords ∧
    journal.fileBytes + n * journal.frameBound ≤ journal.options.maxFileBytes

/-- A file of these records is within the bounds. -/
def Holds (journal : Journal) (records : List JournalRecord) : Prop :=
  records.length ≤ Limits.maxJournalRecords ∧
    totalBytes (numbered records) ≤ journal.options.maxFileBytes

instance (journal : Journal) (n : Nat) : Decidable (journal.HasRoom n) := instDecidableAnd

instance (journal : Journal) (records : List JournalRecord) : Decidable (journal.Holds records) :=
  instDecidableAnd

/-- At most a number of frames have been appended. -/
structure GrowsBy (n : Nat) (journal journal' : Journal) : Prop where
  options : journal'.options = journal.options
  frames_le : journal'.frames.length ≤ journal.frames.length + n
  bytes_le : journal'.fileBytes ≤ journal.fileBytes + n * journal.frameBound

theorem growsBy_append (record : JournalRecord) :
    journal.GrowsBy 1 (journal.append record).2 := by
  have hsame : ∀ journal' : Journal, journal'.options = journal.options →
      journal'.frames = journal.frames → journal'.tornBytes = journal.tornBytes →
        journal.GrowsBy 1 journal' := by
    intro journal' hoptions hframes htorn
    refine ⟨hoptions, ?_, ?_⟩ <;> simp [fileBytes, hframes, htorn]
  have hadded : ∀ journal' : Journal, record.payload.length ≤ journal.options.maxPayload →
      journal'.options = journal.options →
      journal'.frames = journal.frames ++ [⟨journal.nextSequence, record⟩] →
        journal'.tornBytes = journal.tornBytes → journal.GrowsBy 1 journal' := by
    intro journal' hpayload hoptions hframes htorn
    refine ⟨hoptions, by simp [hframes], ?_⟩
    simp only [fileBytes, hframes, htorn, totalBytes, List.map_append, List.map_cons, List.map_nil,
      List.sum_append, List.sum_cons, List.sum_nil, JournalFrame.size, frameBound]
    omega
  unfold append
  split
  · exact hsame _ rfl rfl rfl
  · split
    · exact hsame _ rfl rfl rfl
    · rename_i hlength
      have hpayload := Nat.not_lt.mp hlength
      dsimp only
      split
      · exact hadded _ hpayload rfl rfl rfl
      · split <;> exact hadded _ hpayload rfl rfl rfl
      · exact hsame _ rfl rfl rfl

theorem readable_compact {live : List JournalRecord} (hholds : journal.Holds live)
    (h : journal.Readable ∨ (journal.compact live).1 = .ok ()) :
    (journal.compact live).2.Readable := by
  have hreplaced : ∀ journal' : Journal, journal'.options = journal.options →
      journal'.frames = numbered live → journal'.tornBytes = 0 → journal'.Readable := by
    intro journal' hoptions hframes htorn
    refine ⟨?_, ?_⟩
    · rw [hframes, numbered, List.length_map, List.length_zipIdx]
      exact hholds.1
    · rw [fileBytes, hframes, htorn, hoptions]
      exact hholds.2
  have hkept : ∀ journal' : Journal, journal'.options = journal.options →
      journal'.frames = journal.frames → journal'.tornBytes = journal.tornBytes →
        journal.Readable → journal'.Readable := by
    intro journal' hoptions hframes htorn hreadable
    exact ⟨hframes ▸ hreadable.frames_le, by
      rw [fileBytes, hframes, htorn, hoptions]; exact hreadable.bytes_le⟩
  unfold compact at h ⊢
  split at h
  · rename_i hclosed
    rw [if_pos hclosed]
    exact h.resolve_right fun hok => by cases hok
  · rename_i hopen
    rw [if_neg hopen]
    cases houtcome : journal.nextOutcome with
    | synced =>
      simp only [scanFile]
      split_ifs <;> exact hreplaced _ rfl rfl rfl
    | unsynced => exact hreplaced _ rfl rfl rfl
    | lost | severed =>
      rw [houtcome] at h
      exact hkept _ rfl rfl rfl (h.resolve_right fun hok => by cases hok)

theorem Readable.openFile (h : journal.Readable) {status : Status}
    (hstatus : journal.openFile.1 = .error status) : status.code ≠ .oversizedInput := by
  have hsize : ¬ totalBytes journal.consume.frames + journal.consume.tornBytes >
      journal.consume.options.maxFileBytes := Nat.not_lt.mpr h.bytes_le
  unfold Journal.openFile at hstatus
  split at hstatus
  · rw [scanFile, if_neg hsize, apply_ite Prod.fst] at hstatus
    split at hstatus
    · obtain rfl := Except.error.inj hstatus
      decide
    · cases hstatus
  · obtain rfl := Except.error.inj hstatus
    decide

theorem Readable.replay (h : journal.Readable) {status : Status}
    (hstatus : journal.replay Limits.maxJournalRecords journal.options.maxFileBytes =
      .error status) : status.code ≠ .oversizedInput := by
  have hsize : ¬ totalBytes journal.frames + journal.tornBytes > journal.options.maxFileBytes :=
    Nat.not_lt.mpr h.bytes_le
  have hbytes : ¬ totalBytes journal.frames > journal.options.maxFileBytes := by omega
  have hmany : ¬ journal.frames.length > Limits.maxJournalRecords := Nat.not_lt.mpr h.frames_le
  simp only [Journal.replay, rejectIf, if_neg hsize, if_neg hbytes, if_neg hmany, bind,
    Except.bind] at hstatus
  split at hstatus
  · rename_i hclosed
    split at hclosed
    · cases hclosed
      cases hstatus
      decide
    · cases hclosed
  · cases hstatus

theorem growsBy_openFile (journal : Journal) : journal.GrowsBy 0 journal.openFile.2 := by
  unfold Journal.openFile
  split
  · rw [scanFile, apply_ite Prod.snd, apply_ite Prod.snd]
    split
    · exact ⟨rfl, le_rfl, Nat.le_add_right _ _⟩
    · split
      · exact ⟨rfl, le_rfl, Nat.le_add_right _ _⟩
      · refine ⟨rfl, le_rfl, ?_⟩
        simp only [fileBytes, consume]
        omega
  · exact ⟨rfl, le_rfl, Nat.le_add_right _ _⟩

theorem growsBy_cut (journal : Journal) (surviving : Nat) (disk : List DiskOutcome) :
    journal.GrowsBy 0 { journal.cut surviving with disk } := by
  have hprefix := (completeFrames_isPrefix surviving journal.frames)
  have hbytes : totalBytes (completeFrames surviving journal.frames) ≤
      totalBytes journal.frames := by
    obtain ⟨rest, hrest⟩ := hprefix
    conv_rhs => rw [← hrest]
    simp [totalBytes]
  refine ⟨rfl, hprefix.length_le, ?_⟩
  simp only [fileBytes, cut]
  omega

theorem GrowsBy.readable {n : Nat} {journal' : Journal} (h : journal.GrowsBy n journal')
    (hroom : journal.HasRoom n) : journal'.Readable :=
  ⟨h.frames_le.trans hroom.1, by rw [h.options]; exact h.bytes_le.trans hroom.2⟩

theorem GrowsBy.readable_of_readable {journal' : Journal} (h : journal.GrowsBy 0 journal')
    (hreadable : journal.Readable) : journal'.Readable :=
  h.readable ⟨hreadable.frames_le, by rw [Nat.zero_mul]; exact hreadable.bytes_le⟩

theorem GrowsBy.trans {m n : Nat} {journal' journal'' : Journal} (h : journal.GrowsBy m journal')
    (h' : journal'.GrowsBy n journal'') : journal.GrowsBy (m + n) journal'' := by
  have hframes := h'.frames_le
  have hbytes := h'.bytes_le
  refine ⟨h'.options.trans h.options, hframes.trans (by have := h.frames_le; omega), ?_⟩
  rw [frameBound, h.options, ← frameBound] at hbytes
  rw [Nat.add_mul]
  have := h.bytes_le
  omega

theorem GrowsBy.mono {m n : Nat} {journal' : Journal} (h : journal.GrowsBy m journal')
    (hle : m ≤ n) : journal.GrowsBy n journal' :=
  ⟨h.options, h.frames_le.trans (Nat.add_le_add_left hle _),
    h.bytes_le.trans (Nat.add_le_add_left (Nat.mul_le_mul_right _ hle) _)⟩

end Journal

/-- What happens to the file of an engine between two states, at most a number of frames apart. -/
def FileGrows (n : Nat) (journal journal' : Option Journal) : Prop :=
  ∀ after, journal' = some after → ∃ before, journal = some before ∧ before.GrowsBy n after

namespace FileGrows

variable {m n : Nat} {journal journal' journal'' : Option Journal}

theorem of_eq (h : journal' = journal) (n : Nat) : FileGrows n journal journal' := by
  intro after hafter
  exact ⟨after, h ▸ hafter, rfl, Nat.le_add_right _ _, Nat.le_add_right _ _⟩

theorem of_growsBy {before after : Journal} (h : before.GrowsBy n after) :
    FileGrows n (some before) (some after) :=
  fun _ hafter => ⟨before, rfl, Option.some.inj hafter ▸ h⟩

theorem mono (h : FileGrows m journal journal') (hle : m ≤ n) : FileGrows n journal journal' := by
  intro after hafter
  obtain ⟨before, hbefore, hgrows⟩ := h after hafter
  exact ⟨before, hbefore, hgrows.mono hle⟩

theorem trans (h : FileGrows m journal journal') (h' : FileGrows n journal' journal'') :
    FileGrows (m + n) journal journal'' := by
  intro after hafter
  obtain ⟨between, hbetween, hgrows'⟩ := h' after hafter
  obtain ⟨before, hbefore, hgrows⟩ := h between hbetween
  exact ⟨before, hbefore, hgrows.trans hgrows'⟩

theorem write {ready : Bool} {record : JournalRecord} {result : Except Status Unit}
    (hwrite : EngineCore.writeJournal journal ready record = (result, journal')) :
    FileGrows 1 journal journal' := by
  unfold EngineCore.writeJournal at hwrite
  split at hwrite
  · exact of_eq (Prod.mk.inj hwrite).2.symm 1
  · split at hwrite
    · obtain ⟨-, rfl⟩ := Prod.mk.inj hwrite
      exact of_growsBy (Journal.growsBy_append record)
    · exact of_eq (Prod.mk.inj hwrite).2.symm 1

end FileGrows

namespace EngineCore

open TransitionSystem SmallFabric

variable {record : JournalRecord} {status : Status} {surviving n : Nat}

/-! ### Frames that an operation adds -/

theorem fileGrows_writeRecord (record : JournalRecord) :
    FileGrows 1 core.journal (core.writeRecord record).2.journal :=
  FileGrows.write (Prod.mk.eta (p := writeJournal core.journal core.journalReady record)).symm

theorem fileGrows_andThen {α β : Type} {outcome : Outcome α} {f : α → EngineCore → Outcome β}
    {journal : Option Journal} {k : Nat} (h : FileGrows n journal outcome.2.journal)
    (hf : ∀ a core, FileGrows k core.journal (f a core).2.journal) :
    FileGrows (n + k) journal (outcome.andThen f).2.journal := by
  obtain ⟨status | a, core⟩ := outcome
  · exact h.mono (Nat.le_add_right _ _)
  · exact h.trans (hf a core)

theorem fileGrows_release (reason : RevocationReason) (state : RevalidationState)
    (explanation : Explanation) : FileGrows 2 core.journal
      (core.releaseDecisionLocked d reason state explanation).2.journal := by
  generalize hcall : core.releaseDecisionLocked d reason state explanation = outcome
  cases releaseDecisionLocked_effect hcall with
  | unheld _ => exact .of_eq rfl 2
  | unwritten _ hwrite | stuck _ hwrite _ => exact (FileGrows.write hwrite).mono (by decide)
  | unmarked _ hwrite _ hmark | released _ hwrite _ hmark =>
    exact (FileGrows.write hwrite).trans (FileGrows.write hmark)

theorem fileGrows_revalidateLocked (claim : ClaimContext) :
    FileGrows 2 core.journal (core.revalidateLocked d claim).2.journal := by
  unfold revalidateLocked
  split
  · exact .of_eq rfl 2
  · split
    · exact .of_eq rfl 2
    · simp only
      split
      · exact .of_eq rfl 2
      · exact .of_eq rfl 2
      · rw [releaseFor_snd]
        exact core.fileGrows_release _ _ _ _
      · exact .of_eq rfl 2
      · exact .of_eq rfl 2
      · unfold markInvalidated
        exact Outcome.andThen_induction (P := fun core' => FileGrows 2 core.journal core'.journal)
          ((core.fileGrows_writeRecord _).mono (by decide)) fun _ _ _ h => h

theorem fileGrows_revokeLocked (reason : RevocationReason) (claim : ClaimContext) :
    FileGrows 2 core.journal (core.revokeLocked d reason claim).2.journal := by
  unfold revokeLocked
  split
  · exact .of_eq rfl 2
  · simp only
    split
    · exact .of_eq rfl 2
    · split
      · exact .of_eq rfl 2
      · rw [releaseFor_snd]
        exact core.fileGrows_release _ _ _ _

theorem fileGrows_enforceRecord (held : AdmissionDecisionId → List LedgerEntry)
    (reason : RevocationReason) (report : ReconciliationReport) (record : DecisionRecord)
    (core : EngineCore) :
    FileGrows 2 core.journal (enforceRecord held reason report record core).2.journal := by
  unfold enforceRecord
  split
  · exact .of_eq rfl 2
  · split
    · exact .of_eq rfl 2
    · exact Outcome.andThen_induction (P := fun core' => FileGrows 2 core.journal core'.journal)
        (core.fileGrows_release _ _ _ _) fun _ _ _ h => h

theorem fileGrows_enforceRecords (held : AdmissionDecisionId → List LedgerEntry)
    (reason : RevocationReason) (report : ReconciliationReport) (records : List DecisionRecord)
    (core : EngineCore) : FileGrows (2 * records.length) core.journal
      (enforceRecords held reason report records core).2.journal := by
  induction records generalizing report core with
  | nil => exact .of_eq rfl 0
  | cons record rest ih =>
    rw [enforceRecords, List.length_cons, Nat.mul_succ, Nat.add_comm]
    exact fileGrows_andThen (fileGrows_enforceRecord held reason report record core)
      fun report' core' => ih report' core'

theorem fileGrows_enforceAccountingLocked (trigger : EnforcementTrigger) :
    FileGrows (2 * core.history.inAuditOrder.length + 1) core.journal
      (core.enforceAccountingLocked trigger).2.journal := by
  unfold enforceAccountingLocked
  split
  · exact .of_eq rfl _
  · rename_i snapshot _
    have hpass := fileGrows_enforceRecords core.ledger.entriesOf trigger.reason
      { performed := true, trigger } core.history.inAuditOrder.reverse core
    rw [List.length_reverse] at hpass
    refine fileGrows_andThen hpass fun report core' => ?_
    unfold finishEnforcement
    split
    · exact (core'.reconciled snapshot report).fileGrows_writeRecord _
    · exact .of_eq rfl 1

/-- The frames that an operation can add, admissions that end with a compaction apart. -/
def framesOf (core : EngineCore) : Operation → Nat
  | .publishPolicy _ | .publishCapacity _ | .publishReservations _ =>
    2 * core.history.inAuditOrder.length + 2
  | .admitRequest _ _ | .revalidate _ _ | .revoke _ _ _ => 2
  | .beginNewIncarnation _ => 1
  | _ => 0

private theorem fileGrows_publish {core : EngineCore} {checked : Except Status Bool}
    {install : Outcome Unit} (hinstall : FileGrows n core.journal install.2.journal) :
    FileGrows n core.journal (core.publish checked install).2.journal := by
  unfold publish
  split
  · exact .of_eq rfl n
  · exact .of_eq rfl n
  · exact hinstall

theorem fileGrows_publishPolicy (policy : AdmissionPolicy) :
    FileGrows (2 * core.history.inAuditOrder.length + 2) core.journal
      (core.publishPolicy policy).2.journal := by
  unfold publishPolicy
  split
  · exact .of_eq rfl _
  · rename_i hvalid
    refine fileGrows_publish ?_
    have hwrite := core.fileGrows_writeRecord (.policyConfig policy)
    refine Outcome.andThen_induction (P := fun core' => FileGrows
      (2 * core.history.inAuditOrder.length + 2) core.journal core'.journal)
      (hwrite.mono (by omega)) ?_
    intro _ core' hcore' _
    obtain rfl : (core.writeRecord (.policyConfig policy)).2 = core' := congrArg Prod.snd hcore'
    have hpass := fileGrows_enforceAccountingLocked
      ((core.writeRecord (.policyConfig policy)).2.withPolicy policy hvalid) .policyPublication
    exact (hwrite.trans hpass).mono (Nat.add_comm _ _).le

theorem fileGrows_perform {operation : Operation}
    (hrequest : ∀ request claim, operation ≠ .admitRequest request claim)
    (hcompact : operation ≠ .compactJournal) :
    FileGrows (core.framesOf operation) core.journal (core.perform operation).2.journal := by
  have hsame : FileGrows 0 core.journal core.journal := .of_eq rfl 0
  cases operation <;> simp only [perform, answering_snd]
  case publishPolicy policy => exact core.fileGrows_publishPolicy policy
  case publishCapacity snapshot =>
    unfold publishCapacity
    split
    · exact .of_eq rfl _
    · rename_i hvalid
      exact fileGrows_publish
        ((fileGrows_enforceAccountingLocked (core.withCapacity snapshot hvalid) _).mono
          (Nat.le_succ _))
  case publishReservations snapshot =>
    unfold publishReservations
    split
    · exact .of_eq rfl _
    · rename_i hvalid
      exact fileGrows_publish
        ((fileGrows_enforceAccountingLocked (core.withReservations snapshot hvalid) _).mono
          (Nat.le_succ _))
  case publishPaths catalog =>
    exact Housekeeping.publishPaths
      (P := fun core' => FileGrows 0 core.journal core'.journal) (fun _ _ h => h) hsame
  case publishQosCatalog catalog =>
    exact Housekeeping.publishQosCatalog
      (P := fun core' => FileGrows 0 core.journal core'.journal) (fun _ _ h => h) hsame
  case publishPriorityCatalog catalog =>
    exact Housekeeping.publishPriorityCatalog
      (P := fun core' => FileGrows 0 core.journal core'.journal) (fun _ _ h => h) hsame
  case invalidateCapacity => exact hsame
  case invalidatePaths => exact hsame
  case admitRequest request claim => exact absurd rfl (hrequest request claim)
  case revalidate d claim => exact core.fileGrows_revalidateLocked d claim
  case revoke d reason claim => exact core.fileGrows_revokeLocked d reason claim
  case registerSession publisher boot =>
    exact Housekeeping.registerSession
      (P := fun core' => FileGrows 0 core.journal core'.journal) hsame
      (fun _ _ => hsame) publisher boot
  case retireSession session =>
    exact Housekeeping.retireSession
      (P := fun core' => FileGrows 0 core.journal core'.journal) hsame
      (fun _ _ => hsame) session
  case beginNewIncarnation incarnation =>
    unfold beginNewIncarnation
    split
    · exact .of_eq rfl 1
    · exact fileGrows_writeRecord _ _
  case advanceTick ticks =>
    exact .of_eq (congrArg Stores.journal (stores_withTick core (satAdd core.tick ticks))) 0
  case compactJournal => exact absurd rfl hcompact

theorem fileGrows_finishRefusal (request : AdmissionRequest) (recordAttempt : Bool) :
    FileGrows 1 core.journal (core.finishRefusal decision request recordAttempt).2.journal := by
  generalize hcall : core.finishRefusal decision request recordAttempt = outcome
  cases finishRefusal_effect hcall with
  | unwritten hwrite | settled hwrite => exact FileGrows.write hwrite

theorem fileGrows_boot (config : EngineConfig) (journal : Journal) :
    FileGrows 1 (some journal) (boot config journal).2.journal := by
  have hopened : FileGrows 0 (some journal) (some journal.openFile.2) :=
    .of_growsBy journal.growsBy_openFile
  have heffect := boot_effect config journal
  generalize (boot config journal).2 = core, (boot config journal).1.status = status at heffect ⊢
  cases heffect with
  | unopened hopen | unread hopen =>
    rw [hopen] at hopened
    exact hopened.mono (by decide)
  | read hopen hrecover =>
    rw [hopen] at hopened
    cases hrecover with
    | refused _ | unrestored _ _ => exact hopened.mono (by decide)
    | restored _ _ hfinish =>
      cases hfinish with
      | fenced _ => exact hopened.mono (by decide)
      | unwritten _ hboot | resumed _ hboot => exact hopened.trans (FileGrows.write hboot)

/-! ### Admissions -/

/-- The file of the engine is within the bounds of a recovery. -/
def Replayable (core : EngineCore) : Prop :=
  ∀ journal, core.journal = some journal → journal.Readable

theorem replayable_of_fileGrows {core' : EngineCore} {journal : Option Journal}
    (h : FileGrows n journal core'.journal) (hroom : ∀ j, journal = some j → j.HasRoom n) :
    core'.Replayable := by
  intro after hafter
  obtain ⟨before, hbefore, hgrows⟩ := h after hafter
  exact hgrows.readable (hroom before hbefore)

/-- The engine with a grant entered into its ledger, its history and its attempts. -/
def entered (core : EngineCore) (request : AdmissionRequest) (claim : ClaimContext)
    (grant : Grant) : EngineCore :=
  let decision := core.admission request claim grant
  let ledger := (core.ledger.reserve decision.decision decision.demand core.epoch
    decision.boundCapacityGeneration decision.selectedPath (amountsOf grant)).2
  settle { core.consumeIdentity with ledger } decision (core.consumeIdentity.liveRecord decision)
    (some (core.consumeIdentity.attemptOf request decision))

theorem frameCount_of_write {journal' : Option Journal} (hjournal : core.journal = some journal)
    (hready : core.journalReady = true)
    (hwrite : writeJournal core.journal core.journalReady record = (.ok (), journal')) :
    ∃ written, journal' = some written ∧ written.options = journal.options ∧
      written.frameCount = journal.frameCount + 1 := by
  rw [hjournal, hready] at hwrite
  obtain ⟨hok, rfl⟩ := Prod.mk.inj hwrite
  exact ⟨_, rfl, (Journal.of_append_ok hok).2.2.1, Journal.frameCount_of_append_ok hok⟩

/-- The two frames of a grant bring the journal to the length at which it is compacted. -/
def compactionDue (core : EngineCore) : Bool :=
  core.journalReady && core.journal.any fun journal =>
    journal.options.compactAtRecords ≤ journal.frameCount + 2

theorem compactionDue_eq_true_iff {core : EngineCore} :
    core.compactionDue = true ↔ core.journalReady = true ∧ ∃ journal,
      core.journal = some journal ∧
        journal.options.compactAtRecords ≤ journal.frameCount + 2 := by
  cases hjournal : core.journal <;> simp [compactionDue, hjournal]

theorem compactionDue_iff {core : EngineCore} {prepare commit : JournalRecord}
    {prepared : Option Journal} {committed : Journal}
    (hprepare : writeJournal core.journal core.journalReady prepare = (.ok (), prepared))
    (hcommit : writeJournal prepared core.journalReady commit = (.ok (), some committed)) :
    core.compactionDue = true ↔ core.journalReady = true ∧
      committed.options.compactAtRecords ≤ committed.frameCount := by
  obtain ⟨before, hbefore, -⟩ :=
    ((FileGrows.write hprepare).trans (FileGrows.write hcommit)) committed rfl
  rw [compactionDue_eq_true_iff]
  refine and_congr_right fun hready => ?_
  obtain ⟨j, rfl, hoptions, hcount⟩ := frameCount_of_write core hbefore hready hprepare
  obtain ⟨j', hj', hoptions', hcount'⟩ :=
    frameCount_of_write { core with journal := some j } rfl hready hcommit
  obtain rfl := Option.some.inj hj'
  rw [hoptions', hoptions, hcount', hcount, hbefore]
  simp

theorem replayable_compactLocked {core : EngineCore}
    (hholds : ∀ journal, core.journal = some journal → journal.Holds core.compactedRecords)
    (h : core.Replayable ∨ core.compactLocked.1 = .ok ()) : core.compactLocked.2.Replayable := by
  unfold compactLocked at h ⊢
  split at h
  · exact h.resolve_right nofun
  · rename_i journal hjournal
    split at h
    · rename_i hready
      rw [if_pos hready]
      intro after hafter
      obtain rfl := Option.some.inj hafter
      exact Journal.readable_compact (hholds journal hjournal)
        (h.imp_left fun hreplayable => hreplayable journal hjournal)
    · rename_i hready
      rw [if_neg hready]
      exact h.resolve_right nofun

theorem replayable_finishAdmission {request : AdmissionRequest} {claim : ClaimContext}
    {grant : Grant}
    (hroom : (∀ journal, core.journal = some journal → journal.HasRoom 2) ∨
      (core.consumeIdentity.finishAdmission (core.admission request claim grant) request
        (amountsOf grant)).1 = .ok () ∧ core.compactionDue = true)
    (hholds : core.compactionDue = true → ∀ journal, core.journal = some journal →
      journal.Holds (core.entered request claim grant).compactedRecords) :
    (core.consumeIdentity.finishAdmission (core.admission request claim grant) request
      (amountsOf grant)).2.Replayable := by
  generalize hcall : core.consumeIdentity.finishAdmission _ _ _ = outcome at hroom ⊢
  cases finishAdmission_effect hcall with
  | unprepared hprepare =>
    exact replayable_of_fileGrows ((FileGrows.write hprepare).mono (by decide))
      (hroom.resolve_right nofun)
  | unreserved hprepare _ =>
    exact replayable_of_fileGrows ((FileGrows.write hprepare).mono (by decide))
      (hroom.resolve_right nofun)
  | uncommitted hprepare _ hcommit =>
    exact replayable_of_fileGrows ((FileGrows.write hprepare).trans (FileGrows.write hcommit))
      (hroom.resolve_right nofun)
  | @committed journal journal' ledger hprepare hreserve hcommit =>
    obtain rfl : _ = ledger := congrArg Prod.snd hreserve
    have hgrows := (FileGrows.write hprepare).trans (FileGrows.write hcommit)
    change (_ ∨ (compactIfNeededLocked
      { core.entered request claim grant with journal := journal' }).1 = .ok () ∧ _) at hroom
    change (compactIfNeededLocked
      { core.entered request claim grant with journal := journal' }).2.Replayable
    cases journal' with
    | none => exact nofun
    | some committed =>
      have hdue := compactionDue_iff hprepare hcommit
      change core.compactionDue = true ↔ (core.entered request claim grant).journalReady = true ∧
        _ at hdue
      unfold compactIfNeededLocked at hroom ⊢
      dsimp only at hroom ⊢
      by_cases hnow : core.compactionDue = true
      · obtain ⟨before, hbefore, hfile⟩ := hgrows committed rfl
        rw [if_pos (hdue.mp hnow)] at hroom ⊢
        refine replayable_compactLocked ?_ (hroom.imp (replayable_of_fileGrows hgrows) And.left)
        intro j hj
        obtain rfl := Option.some.inj hj
        have hfits := hholds hnow before hbefore
        exact ⟨hfits.1, by rw [hfile.options]; exact hfits.2⟩
      -- without a compaction, the two frames are all that was added
      · rw [if_neg (hdue.not.mp hnow)]
        exact replayable_of_fileGrows hgrows (hroom.resolve_right fun h => hnow h.2)

theorem replayable_admitLocked {request : AdmissionRequest} {claim : ClaimContext}
    (h : core.Replayable)
    (hroom : (∀ journal, core.journal = some journal → journal.HasRoom 2) ∨
      core.grantsFresh request claim = true ∧ core.compactionDue = true)
    (hholds : core.compactionDue = true → ∀ journal, core.journal = some journal →
      ∀ grant, core.verdict request claim = .grant grant →
        journal.Holds (core.entered request claim grant).compactedRecords) :
    (core.admitLocked request claim).2.Replayable := by
  have hrefused : (∀ grant, core.verdict request claim ≠ .grant grant) →
      ∀ journal, core.journal = some journal → journal.HasRoom 2 := by
    intro hnone
    refine hroom.resolve_right fun ⟨hfresh, _⟩ => ?_
    obtain ⟨decision, core', hanswer, hadmitting, hreplay⟩ := grantsFresh_eq_true_iff.mp hfresh
    obtain ⟨grant, hverdict, -⟩ := admitLocked_fresh hanswer hadmitting hreplay
    exact hnone grant hverdict
  cases hverdict : core.verdict request claim with
  | refuse reason evidence recordAttempt | retired reason =>
    simp only [admitLocked, hverdict, refuse, answer_snd]
    exact replayable_of_fileGrows ((fileGrows_finishRefusal _ _ _ _).mono (by decide))
      (hrefused (by simp [hverdict]))
  | replay decision =>
    simp only [admitLocked, hverdict]
    exact h
  | grant grant =>
    simp only [admitLocked_of_grant hverdict, answer_snd]
    refine replayable_finishAdmission core (hroom.imp_right fun ⟨hfresh, hdue⟩ => ⟨?_, hdue⟩)
      fun hdue journal hjournal => hholds hdue journal hjournal grant hverdict
    obtain ⟨decision, core', hanswer, -⟩ := grantsFresh_eq_true_iff.mp hfresh
    rw [admitLocked_of_grant hverdict] at hanswer
    exact (answer_fst_eq_ok_iff.mp (congrArg Prod.fst hanswer)).1

/-! ### Runs -/

/-- What a compaction after the admission of a request would write. -/
def compactsTo (core : EngineCore) (request : AdmissionRequest) (claim : ClaimContext) :
    List JournalRecord :=
  match core.verdict request claim with
  | .grant grant => (core.entered request claim grant).compactedRecords
  | _ => []

/-- The journal has room for what an operation adds to it, in frames and in bytes, and for what a
compaction writes that is due. An admission needs no room if it is granted and ends with a
compaction. -/
def RoomFor (core : EngineCore) (journal : Journal) : Operation → Prop
  | .compactJournal => journal.Holds core.compactedRecords
  | .admitRequest request claim =>
    (journal.HasRoom 2 ∨ core.grantsFresh request claim = true ∧ core.compactionDue = true) ∧
      (core.compactionDue = true → journal.Holds (core.compactsTo request claim))
  | operation => journal.HasRoom (core.framesOf operation)

/-- The journal has room for what an event adds to it. -/
def LeavesRoom (core : EngineCore) : Event → Prop
  | .call call => ∀ journal ∈ (core.onDisk call.disk).journal,
    (core.onDisk call.disk).RoomFor journal call.operation
  | .restart _ _ _ => ∀ journal ∈ core.journal, journal.HasRoom 1

/-- A new engine whose journal, if it has one, takes at least one frame of any size. -/
def RoomyStart (core : EngineCore) : Prop :=
  core.Starting ∧
    ∀ journal, core.journal = some journal → journal.frameBound ≤ journal.options.maxFileBytes

theorem Replayable.perform {core : EngineCore} (h : core.Replayable) {operation : Operation}
    (hroom : ∀ journal ∈ core.journal, core.RoomFor journal operation) :
    (core.perform operation).2.Replayable := by
  by_cases hcompact : operation = .compactJournal
  · subst hcompact
    rw [EngineCore.perform, answering_snd]
    exact replayable_compactLocked hroom (Or.inl h)
  by_cases hrequest : ∃ request claim, operation = .admitRequest request claim
  · obtain ⟨request, claim, rfl⟩ := hrequest
    rw [EngineCore.perform, answering_snd]
    refine replayable_admitLocked core h ?_ ?_
    · by_cases hlast : core.grantsFresh request claim = true ∧ core.compactionDue = true
      · exact Or.inr hlast
      · exact Or.inl fun journal hjournal => (hroom journal hjournal).1.resolve_right hlast
    · intro hdue journal hjournal grant hverdict
      have hholds := (hroom journal hjournal).2 hdue
      rwa [compactsTo, hverdict] at hholds
  · refine replayable_of_fileGrows (core.fileGrows_perform
      (fun request claim heq => hrequest ⟨request, claim, heq⟩) hcompact) fun journal hjournal => ?_
    have hspace := hroom journal hjournal
    cases operation
    case compactJournal => exact absurd rfl hcompact
    case admitRequest request claim => exact absurd ⟨request, claim, rfl⟩ hrequest
    all_goals exact hspace

theorem Replayable.onDisk {core : EngineCore} (h : core.Replayable) (disk : List DiskOutcome) :
    (core.onDisk disk).Replayable := by
  intro journal hjournal
  obtain ⟨before, hbefore, rfl⟩ := Option.map_eq_some_iff.mp hjournal
  exact ⟨(h before hbefore).frames_le, (h before hbefore).bytes_le⟩

theorem Replayable.restart {core : EngineCore} {config : EngineConfig} {disk : List DiskOutcome}
    (hroom : core.LeavesRoom (.restart config surviving disk)) :
    (core.restart config surviving disk).2.Replayable := by
  unfold EngineCore.restart
  split
  · exact nofun
  · rename_i journal hjournal
    have hcut : FileGrows 0 (some journal) (some { journal.cut surviving with disk }) :=
      .of_growsBy (journal.growsBy_cut surviving disk)
    refine replayable_of_fileGrows (hcut.trans (fileGrows_boot config _)) fun j hj => ?_
    exact hroom j (hjournal.trans hj)

theorem Replayable.starting {core : EngineCore} (h : core.RoomyStart) : core.Replayable := by
  obtain ⟨⟨config, rfl⟩ | ⟨config, options, disk, rfl⟩, hroom⟩ := h
  · exact nofun
  · intro journal hjournal
    obtain ⟨before, hbefore, hgrows⟩ := fileGrows_boot config { options, disk } journal hjournal
    obtain rfl := Option.some.inj hbefore
    have hbound := hroom journal hjournal
    have hbytes := hgrows.bytes_le
    rw [Journal.frameBound, hgrows.options, ← Journal.frameBound] at hbound
    refine ⟨hgrows.frames_le.trans (by change 0 + 1 ≤ 2 ^ 20; decide), hbytes.trans ?_⟩
    rw [hgrows.options]
    simpa [Journal.fileBytes, totalBytes] using hbound

/-- In a run in which the journal always has room for what the next event adds, no crash leaves a
file that is refused for its size, neither when it is opened nor when it is replayed. -/
theorem replayable_of_reachable {core : EngineCore}
    (h : Reachable RoomyStart EngineCore.follow LeavesRoom core) (journal : Journal)
    (hjournal : core.journal = some journal) (surviving : Nat) (disk : List DiskOutcome)
    (status : Status) :
    journal.frames.length ≤ Limits.maxJournalRecords ∧
      (({ journal.cut surviving with disk } : Journal).openFile.1 = .error status →
        status.code ≠ .oversizedInput) ∧
      (({ journal.cut surviving with disk } : Journal).openFile.2.replay Limits.maxJournalRecords
        journal.options.maxFileBytes = .error status → status.code ≠ .oversizedInput) := by
  have hreplayable : core.Replayable := h.invariant (I := Replayable)
    (fun _ => Replayable.starting) fun core event hcore hroom => by
      cases event with
      | call call => exact (hcore.onDisk call.disk).perform hroom
      | restart config surviving disk => exact Replayable.restart hroom
  have hreadable := hreplayable journal hjournal
  have hcut := (journal.growsBy_cut surviving disk).readable_of_readable hreadable
  have hopen := ({ journal.cut surviving with disk } : Journal).growsBy_openFile
  refine ⟨hreadable.frames_le, hcut.openFile, fun hreplay => ?_⟩
  exact (hopen.readable_of_readable hcut).replay (hopen.options ▸ hreplay)

instance (core : EngineCore) (journal : Journal) (operation : Operation) :
    Decidable (core.RoomFor journal operation) := by
  induction operation using Operation.casesOn with
  | compactJournal => exact inferInstanceAs (Decidable (journal.Holds _))
  | admitRequest request claim => exact inferInstanceAs (Decidable (_ ∧ (_ → _)))
  | _ => exact inferInstanceAs (Decidable (journal.HasRoom _))

instance (core : EngineCore) (event : Event) : Decidable (core.LeavesRoom event) := by
  rcases event with call | ⟨config, surviving, disk⟩
  · exact inferInstanceAs (Decidable (∀ journal ∈ (core.onDisk call.disk).journal, _))
  · exact inferInstanceAs (Decidable (∀ journal ∈ core.journal, _))

/-- Announce one resource, admit a request, refuse another one, compact and restart. -/
def replayableRun : List Event :=
  Event.calls (announce [known 1 1 100] ++ [.admitRequest (request 1 ⟨1, 20, 20⟩ [1]) {},
    .admitRequest (request 2 ⟨200, 200, 200⟩ [1]) {}, .compactJournal]) ++
    [.restart { epoch := 0 } 4096 []]

/-- The restarted engine can be restarted again. -/
theorem replayable_restarted :
    ∃ journal, (run EngineCore.follow (boot { epoch := 0 } {}).2 replayableRun).journal =
      some journal ∧ journal.frames.length ≤ Limits.maxJournalRecords ∧
      ∀ status, ({ journal.cut 100 with disk := [] } : Journal).openFile.1 = .error status →
        status.code ≠ .oversizedInput := by
  have hallowed : Allowed follow LeavesRoom (boot { epoch := 0 } {}).2
      replayableRun := by
    decide +kernel
  have hoptions : (boot { epoch := 0 } {}).2.journal.map (·.options) = some {} := by decide +kernel
  have hstart : Reachable RoomyStart follow LeavesRoom (boot { epoch := 0 } {}).2 := by
    refine .init ⟨Or.inr ⟨{ epoch := 0 }, {}, [], rfl⟩, fun journal hjournal => ?_⟩
    rw [hjournal] at hoptions
    have hdefault : journal.options = {} := Option.some.inj hoptions
    rw [Journal.frameBound, hdefault]
    decide
  have hreach : Reachable RoomyStart follow LeavesRoom
      (run follow (boot { epoch := 0 } {}).2 replayableRun) := hstart.run hallowed
  have hsome : (run follow (boot { epoch := 0 } {}).2 replayableRun).journal.isSome =
      true := by
    decide +kernel
  obtain ⟨journal, hjournal⟩ := Option.isSome_iff_exists.mp hsome
  have hread := replayable_of_reachable hreach journal hjournal 100 []
  exact ⟨journal, hjournal, (hread Journal.durableFailure).1, fun status => (hread status).2.1⟩

/-! ### Refusals alone -/

/-- An open journal with default options, a number of frames and room for many more bytes. -/
structure Logged (core : EngineCore) (journal : Journal) (n : Nat) : Prop extends
    core.Attached journal where
  isOpen : journal.isOpen = true
  options_eq : journal.options = {}
  whole : journal.tornBytes = 0
  length_eq : journal.frames.length = n
  bytes_le : totalBytes journal.frames ≤ 256 * n
  payload_le : ∀ frame ∈ journal.frames, frame.record.payload.length ≤ Limits.maxJournalPayload

theorem Logged.refused {core : EngineCore} (h : core.Logged journal n)
    {request : AdmissionRequest} (hinvalid : request.validate = .error status)
    (claim : ClaimContext) :
    ∃ journal',
      (core.after { operation := .admitRequest request claim }).Logged journal' (n + 1) := by
  obtain ⟨record, hattached⟩ := h.after_invalid h.isOpen (by rw [h.options_eq]; decide) hinvalid
    claim
  have hpayload : (JournalRecord.admissionRefused record).payload.length = 149 :=
    length_encode_decision record
  refine ⟨_, hattached, h.isOpen, h.options_eq, h.whole, ?_, ?_, ?_⟩
  · simp [Journal.appended, h.length_eq]
  · have hbytes := h.bytes_le
    simp only [Journal.appended, totalBytes, List.map_append, List.sum_append, List.map_cons,
      List.map_nil, List.sum_cons, List.sum_nil, JournalFrame.size, hpayload,
      journalOverheadBytes] at hbytes ⊢
    omega
  · intro frame hframe
    rcases List.mem_append.mp hframe with hframe | hframe
    · exact h.payload_le frame hframe
    · rw [List.mem_singleton.mp hframe, hpayload]
      decide

theorem Logged.refusals {core : EngineCore} (h : core.Logged journal n)
    {request : AdmissionRequest} (hinvalid : request.validate = .error status)
    (claim : ClaimContext) (k : Nat) :
    ∃ journal', (core.performAll (List.replicate k (.admitRequest request claim))).Logged
      journal' (n + k) := by
  induction k generalizing core journal n with
  | zero => exact ⟨journal, h⟩
  | succ k ih =>
    obtain ⟨journal', h'⟩ := h.refused hinvalid claim
    obtain ⟨journal'', h''⟩ := ih h'
    exact ⟨journal'', Nat.succ_add_eq_add_succ n k ▸ h''⟩

theorem Logged.restart_oversized {core : EngineCore} (h : core.Logged journal n)
    (hn : Limits.maxJournalRecords < n) (hfile : 256 * n ≤ 2 ^ 32) (config : EngineConfig)
    (hsurviving : 256 * n ≤ surviving) :
    (core.restart config surviving []).1.status =
      some ⟨.oversizedInput, "journal has more frames than the replay bound"⟩ := by
  have hframes : (journal.cut surviving).frames = journal.frames :=
    Journal.frames_cut_of_le (h.bytes_le.trans hsurviving)
  have htorn : (journal.cut surviving).tornBytes = 0 := by
    have hcut : completeFrames surviving journal.frames = journal.frames := hframes
    simp only [Journal.cut, hcut, h.whole]
    omega
  have hoptions : (journal.cut surviving).options = {} := h.options_eq
  obtain ⟨opened, hopen, hopened⟩ :=
    Journal.openFile_of_whole { journal.cut surviving with disk := [] } rfl htorn
      (by simp only [hframes, hoptions]; exact h.bytes_le.trans hfile)
      (by simp only [hframes, hoptions]; exact h.payload_le)
  have hreplay : opened.replay Limits.maxJournalRecords opened.options.maxFileBytes =
      .error ⟨.oversizedInput, "journal has more frames than the replay bound"⟩ := by
    have hmany : opened.frames.length > Limits.maxJournalRecords := by
      rw [hopened.1, hframes, h.length_eq]
      exact hn
    have hsize : ¬ totalBytes opened.frames + opened.tornBytes > opened.options.maxFileBytes := by
      rw [hopened.1, hopened.2.1, hopened.2.2.1, hframes, hoptions]
      exact Nat.not_lt.mpr (h.bytes_le.trans hfile)
    simp [Journal.replay, rejectIf, hopened.2.2.2, hsize, hmany, bind, Except.bind]
  simp only [EngineCore.restart, h.journal_eq, boot, attachJournal_fresh, openDurable, hopen,
    hreplay]
  rfl

/-- After as many refusals as a recovery reads frames, the next recovery is refused. -/
theorem oversized_after_refusals :
    Limits.maxJournalRecords < ((boot {} {}).2.performAll (List.replicate Limits.maxJournalRecords
      (.admitRequest (request 0 ⟨1, 1, 1⟩ []) {}))).records.length ∧
    (((boot {} {}).2.performAll (List.replicate Limits.maxJournalRecords
      (.admitRequest (request 0 ⟨1, 1, 1⟩ []) {}))).restart { epoch := 0 } (2 ^ 32) []).1.status =
        some ⟨.oversizedInput, "journal has more frames than the replay bound"⟩ := by
  have hboot : (boot {} {}).2.Logged ((boot {} {}).2.journal.getD {}) 1 :=
    ⟨⟨rfl, rfl, rfl⟩, rfl, rfl, rfl, rfl, by decide +kernel, by decide +kernel⟩
  have hinvalid : (request 0 ⟨1, 1, 1⟩ []).validate = .error (malformed "request id is unknown") :=
    rfl
  obtain ⟨journal, hlogged⟩ := hboot.refusals hinvalid {} Limits.maxJournalRecords
  refine ⟨?_, hlogged.restart_oversized (by omega) (by decide) _ (by decide)⟩
  rw [hlogged.records_eq, Journal.records, List.length_map, hlogged.length_eq]
  omega

end EngineCore

end AdmissionFabric
