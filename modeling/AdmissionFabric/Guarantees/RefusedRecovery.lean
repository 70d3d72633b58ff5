import AdmissionFabric.Engine.JournalEffects
import AdmissionFabric.Engine.VerdictSpec

/-!
# Refused recoveries

`open_durable` replays the journal into the engine itself: the policy, the history and the attempts
change frame by frame, the ledger after the last frame, and the epoch before the boot record is
written. None of the refusals on the way takes anything back. The journal counts as ready from the
moment its file is open, so an engine whose recovery was refused goes on appending to the journal
that it could not read.

Only a file that cannot be opened leaves the engine as it was.
-/

namespace AdmissionFabric

variable {opened journal : Journal}

namespace Journal

@[simp] theorem options_scanFile (journal : Journal) :
    journal.scanFile.2.options = journal.options := by
  unfold scanFile
  split
  · rfl
  · split <;> rfl

theorem options_openFile (journal : Journal) : journal.openFile.2.options = journal.options := by
  unfold openFile
  split
  · exact journal.consume.options_scanFile
  · rfl

theorem of_openFile_ok (h : journal.openFile = (.ok (), opened)) :
    opened.isOpen = true ∧ opened.options = journal.options := by
  refine ⟨?_, by rw [← journal.options_openFile, h]⟩
  unfold openFile at h
  split at h
  · have hscan : journal.consume.scanFile.2.isOpen = true := by
      unfold scanFile
      split
      · rfl
      · split <;> rfl
    rw [h] at hscan
    exact hscan
  · cases h

end Journal

namespace EngineCore

open TransitionSystem SmallFabric

variable {record : JournalRecord} {result : Except Status Unit}

/-! ### Journals that are not in use -/

/-- The journal is not ready or its file is closed, and it has these records. -/
def Detached (records : List JournalRecord) (core : EngineCore) : Prop :=
  (core.journalReady = false ∨ ∀ journal ∈ core.journal, journal.isOpen = false) ∧
    core.records = records

variable {core : EngineCore} {records : List JournalRecord}

theorem Detached.congr {core' : EngineCore} (h : core.Detached records)
    (hjournal : core'.journal = core.journal) (hready : core'.journalReady = core.journalReady) :
    core'.Detached records := by
  refine ⟨?_, ?_⟩
  · rw [hjournal, hready]
    exact h.1
  · rw [EngineCore.records, hjournal]
    exact h.2

theorem Detached.journal_of_write (h : core.Detached records) {journal : Option Journal}
    (hwrite : writeJournal core.journal core.journalReady record = (result, journal)) :
    journal = core.journal := by
  unfold writeJournal at hwrite
  split at hwrite
  · rename_i hnone
    rw [hnone]
    exact (Prod.mk.inj hwrite).2.symm
  · rename_i j hsome
    split at hwrite
    · rename_i hready
      obtain hunready | hclosed := h.1
      · rw [hready] at hunready
        cases hunready
      · have happend : (j.append record).2 = j := by
          simp [Journal.append, hclosed j hsome]
        rw [hsome, ← happend]
        exact (Prod.mk.inj hwrite).2.symm
    · rw [hsome]
      exact (Prod.mk.inj hwrite).2.symm

theorem Detached.write (h : core.Detached records) {journal : Option Journal}
    (hwrite : writeJournal core.journal core.journalReady record = (result, journal)) :
    ({ core with journal } : EngineCore).Detached records :=
  h.congr (h.journal_of_write hwrite) rfl

theorem Detached.compactLocked (h : core.Detached records) :
    core.compactLocked.2.Detached records := by
  unfold EngineCore.compactLocked
  split
  · exact h
  · rename_i journal hsome
    split
    · rename_i hready
      obtain hunready | hclosed := h.1
      · rw [hready] at hunready
        cases hunready
      · have hcompact : (journal.compact core.compactedRecords).2 = journal := by
          simp [Journal.compact, hclosed journal hsome]
        exact h.congr (by simp only [hcompact, hsome]) rfl
    · exact h

theorem Detached.compactIfNeededLocked (h : core.Detached records) :
    core.compactIfNeededLocked.2.Detached records := by
  unfold EngineCore.compactIfNeededLocked
  split
  · exact h
  · split
    · exact h.compactLocked
    · exact h

theorem preserved_detached (records : List JournalRecord) : Preserved (Detached records) where
  release core d reason explanation _ h := by
    generalize hcall : core.releaseDecisionLocked d reason .revoked explanation = outcome
    cases releaseDecisionLocked_effect hcall with
    | unheld _ => exact h
    | unwritten _ hwrite | stuck _ hwrite _ => exact h.write hwrite
    | unmarked _ hwrite _ hmark | released _ hwrite _ hmark =>
      exact ((h.write hwrite).write hmark).congr rfl rfl
  mark _ _ _ _ _ h := h.congr rfl rfl
  note _ _ _ h := h.write rfl
  clearFlags _ h := h.congr rfl rfl
  refusal core request claim reason evidence recordAttempt h := by
    generalize core.refusal request claim reason evidence = decision
    generalize hcall : core.consumeIdentity.finishRefusal decision request recordAttempt = outcome
    have h' : core.consumeIdentity.Detached records := h.congr rfl rfl
    cases finishRefusal_effect hcall with
    | unwritten hwrite => exact h'.write hwrite
    | settled hwrite => exact (h'.write hwrite).congr rfl rfl
  grant core request claim grant _ h := by
    generalize hcall : core.consumeIdentity.finishAdmission _ _ _ = outcome
    have h' : core.consumeIdentity.Detached records := h.congr rfl rfl
    cases finishAdmission_effect hcall with
    | unprepared hprepare => exact h'.write hprepare
    | unreserved hprepare _ => exact (h'.write hprepare).congr rfl rfl
    | uncommitted hprepare _ hcommit =>
      exact ((h'.write hprepare).write hcommit).congr rfl rfl
    | committed hprepare _ hcommit =>
      refine Detached.compactIfNeededLocked ?_
      exact ((h'.write hprepare).write hcommit).congr rfl rfl
  compact _ h := h.compactLocked
  tidy _ _ hstores _ h := h.congr (congrArg Stores.journal hstores)
    (congrArg Stores.journalReady hstores)

theorem Detached.after (h : core.Detached records) (call : Call) :
    (core.after call).Detached records := by
  have hdisk : (core.onDisk call.disk).Detached records := by
    refine ⟨h.1.imp id fun hclosed journal hjournal => ?_, ?_⟩
    · obtain ⟨j, hj, rfl⟩ := Option.map_eq_some_iff.mp hjournal
      exact hclosed j hj
    · rw [records_onDisk]
      exact h.2
  exact (preserved_detached records).perform
    (fun _ _ hstores h => h.congr (congrArg Stores.journal hstores)
      (congrArg Stores.journalReady hstores)) hdisk call.operation

theorem Detached.run (h : core.Detached records) (calls : List Call) :
    (TransitionSystem.run EngineCore.after core calls).records = records := by
  have hrun : (TransitionSystem.run EngineCore.after core calls).Detached records := by
    induction calls generalizing core with
    | nil => exact h
    | cons call rest ih => exact ih (h.after call)
  exact hrun.2

/-! ### Refusals after the file is open -/

/-- The engine appends to an open journal with these options. -/
def InUse (core : EngineCore) (options : JournalOptions) : Prop :=
  ∃ journal, core.journal = some journal ∧ core.journalReady = true ∧ journal.isOpen = true ∧
    journal.options = options

theorem inUse_of_opened (hjournal : core.journal = some journal)
    (hopen : journal.openFile = (.ok (), opened)) : core.openDurable.2.InUse journal.options := by
  obtain ⟨hisOpen, hoptions⟩ := Journal.of_openFile_ok hopen
  have heffect := openDurable_effect hjournal
  generalize core.openDurable.2 = core', core.openDurable.1.status = status at heffect ⊢
  cases heffect with
  | unopened hfailed =>
    rw [hopen] at hfailed
    cases hfailed
  | unread hopen' =>
    obtain rfl : opened = _ := congrArg Prod.snd (hopen.symm.trans hopen')
    exact ⟨opened, rfl, rfl, hisOpen, hoptions⟩
  | read hopen' hrecover =>
    obtain rfl : opened = _ := congrArg Prod.snd (hopen.symm.trans hopen')
    cases hrecover with
    | refused _ | unrestored _ _ => exact ⟨opened, rfl, rfl, hisOpen, hoptions⟩
    | restored _ _ hfinish =>
      have hwritten : ∀ {record : JournalRecord} {result : Except Status Unit}
          {journal' : Option Journal}, writeJournal (some opened) true record = (result, journal') →
          ∃ j, journal' = some j ∧ j.isOpen = true ∧ j.options = journal.options := by
        intro record result journal' hwrite
        obtain ⟨-, rfl⟩ := Prod.mk.inj hwrite
        exact ⟨_, rfl, (opened.isOpen_append record).trans hisOpen,
          (opened.options_append record).trans hoptions⟩
      cases hfinish with
      | fenced _ => exact ⟨opened, rfl, rfl, hisOpen, hoptions⟩
      | unwritten _ hboot | resumed _ hboot =>
        obtain ⟨j, rfl, hj⟩ := hwritten hboot
        exact ⟨j, rfl, rfl, hj⟩

theorem InUse.exists_appends {options : JournalOptions} (h : core.InUse options)
    (hpayload : 149 ≤ options.maxPayload) :
    ∃ calls, (run EngineCore.after core calls).records ≠ core.records := by
  obtain ⟨journal, hjournal, hready, hisOpen, rfl⟩ := h
  have hattached : (core.onDisk []).Attached { journal with disk := [] } :=
    ⟨by rw [onDisk, hjournal]; rfl, hready, rfl⟩
  have hinvalid : (request 0 ⟨1, 1, 1⟩ []).validate = .error (malformed "request id is unknown") :=
    rfl
  obtain ⟨record, hafter⟩ := hattached.after_invalid hisOpen hpayload hinvalid {}
  refine ⟨[{ operation := .admitRequest (request 0 ⟨1, 1, 1⟩ []) {} }], fun hsame => ?_⟩
  have hcall : run EngineCore.after core
        [{ operation := .admitRequest (request 0 ⟨1, 1, 1⟩ []) {} }] =
      (core.onDisk []).after { operation := .admitRequest (request 0 ⟨1, 1, 1⟩ []) {} } := by
    rw [EngineCore.after, next, hattached.onDisk_nil]
    rfl
  rw [hcall, hafter.records_eq, Journal.records_appended, ← core.records_onDisk [],
    hattached.records_eq] at hsame
  simp at hsame

/-! ### Refused recoveries -/

/-- The durable state and the counters are those of another engine. -/
structure SameState (core core' : EngineCore) : Prop where
  policy : core'.policy = core.policy
  ledger : core'.ledger = core.ledger
  history : core'.history = core.history
  attempts : core'.attempts = core.attempts
  epoch : core'.epoch = core.epoch
  counters : core'.counters = core.counters

/-- Opening the journal changes nothing, and no later operation writes to the journal. -/
def LeftAlone (core : EngineCore) : Prop :=
  core.SameState core.openDurable.2 ∧ ∀ calls,
    (run EngineCore.after core.openDurable.2 calls).records = core.openDurable.2.records

/-- The file cannot be opened, and the engine does not use it from before. -/
def FailsToOpen (core : EngineCore) (journal : Journal) : Prop :=
  ∃ status opened, journal.openFile = (.error status, opened) ∧
    (core.journalReady = false ∨ opened.isOpen = false)

theorem openDurable_of_unopened {status : Status} (hjournal : core.journal = some journal)
    (hopen : journal.openFile = (.error status, opened)) :
    core.openDurable.2 = { core with journal := some opened } := by
  simp only [openDurable, hjournal, hopen]

/-- A refused recovery leaves the engine alone if the file could not be opened, and, for a journal
that takes a refusal frame, only then. -/
theorem leftAlone_of_refused {journal : Journal} (hjournal : core.journal = some journal)
    (_hrefused : core.openDurable.1.outcome = .refused) :
    (core.FailsToOpen journal → core.LeftAlone) ∧
      (149 ≤ journal.options.maxPayload → core.LeftAlone → core.FailsToOpen journal) := by
  constructor
  · rintro ⟨status, opened, hopen, hunused⟩
    have hafter := openDurable_of_unopened hjournal hopen
    refine ⟨?_, fun calls => ?_⟩
    · rw [hafter]
      exact ⟨rfl, rfl, rfl, rfl, rfl, rfl⟩
    · refine Detached.run ⟨?_, rfl⟩ calls
      rw [hafter]
      refine hunused.imp id fun hclosed j hj => ?_
      rw [← Option.some.inj hj]
      exact hclosed
  · rintro hpayload ⟨-, hsilent⟩
    have hnever : ∀ options : JournalOptions, 149 ≤ options.maxPayload →
        ¬ core.openDurable.2.InUse options := by
      intro options hbound hused
      obtain ⟨calls, hcalls⟩ := hused.exists_appends hbound
      exact hcalls (hsilent calls)
    rcases hopen : journal.openFile with ⟨status | ⟨⟩, opened⟩
    · refine ⟨status, opened, hopen, ?_⟩
      by_contra hused
      simp only [not_or, Bool.not_eq_false] at hused
      have hoptions : opened.options = journal.options := by
        rw [← journal.options_openFile, hopen]
      refine hnever journal.options hpayload ⟨opened, ?_, ?_, hused.2, hoptions⟩
      · rw [openDurable_of_unopened hjournal hopen]
      · rw [openDurable_of_unopened hjournal hopen]
        exact hused.1
    · exact absurd (inUse_of_opened hjournal hopen) (hnever _ hpayload)

/-- A fresh engine with a journal attached. -/
def attachedCore (journal : Journal) : EngineCore :=
  { EngineCore.fresh {} with journal := some journal }

/-- An engine with a grant of twenty that attaches a journal on a disk that fails. -/
def lateCore : EngineCore :=
  (((EngineCore.fresh {}).performAll (announce [known 1 1 100] ++
    [.admitRequest (request 1 ⟨1, 20, 20⟩ [1]) {}])).attachJournal { disk := [.lost] }).2

/-- A recovery that fails on the first access to the disk leaves the engine alone. -/
theorem leftAlone_lateCore : lateCore.ledger.admitted 1 = 20 ∧ lateCore.LeftAlone := by
  have hready : lateCore.journalReady = false := by decide +kernel
  have hjournal : lateCore.journal = some { disk := [.lost] } := by
    rw [lateCore, attachJournal, if_neg (by decide +kernel)]
  have hrefused : lateCore.openDurable.1.outcome = .refused := by decide +kernel
  exact ⟨by decide +kernel, (leftAlone_of_refused hjournal hrefused).1 ⟨_, _, rfl, Or.inl hready⟩⟩

/-- The journal of a coordinator of epoch 5 with a policy. -/
def laterJournal : Journal where
  fileExists := true
  frames := Journal.numbered [.bootEpoch (makeBootRecord 5 0), .policyConfig policy]

/-- An engine of epoch 1 refuses that journal, and has its policy nevertheless; the next request
that it refuses is appended to it. -/
theorem changed_by_refused :
    let core := attachedCore laterJournal
    core.openDurable.1.outcome = .refused ∧ core.policy = none ∧
      core.openDurable.2.policy = some policy ∧ core.openDurable.2.records.length = 2 ∧
      (core.openDurable.2.performAll
        [.admitRequest (request 1 ⟨1, 20, 20⟩ [1]) {}]).records.length = 3 := by
  decide +kernel

end EngineCore

end AdmissionFabric
