import AdmissionFabric.Durable.RecordCodec
import AdmissionFabric.Engine.Lifetime
import AdmissionFabric.Engine.ReplaySpec

/-!
# What reaches the journal

Writing a record leaves the records of the journal as they were or adds exactly that record; a
compaction leaves them as they were or replaces them by the compacted ones. A successful recovery
has read every record that survived, and has added one boot record.
-/

namespace AdmissionFabric

namespace Journal

theorem records_append (journal : Journal) (record : JournalRecord) :
    ((∃ s, (journal.append record).1 = .error s) ∧
        (journal.append record).2.records = journal.records) ∨
      (journal.append record).2.records = journal.records ++ [record] := by
  rcases journal.append_cases record with ⟨hfailed, hframes⟩ | hframes
  · exact Or.inl ⟨hfailed, congrArg (List.map JournalFrame.record) hframes⟩
  · exact Or.inr (by rw [records, hframes, List.map_append]; rfl)

theorem records_compact (journal : Journal) (live : List JournalRecord) :
    (journal.compact live).2.records = journal.records ∨
      (journal.compact live).2.records = live := by
  unfold compact
  split
  · exact Or.inl rfl
  · cases journal.nextOutcome with
    | synced =>
      right
      rw [records_scanFile]
      exact map_record_numbered live
    | lost | severed => exact Or.inl rfl
    | unsynced => exact Or.inr (map_record_numbered live)

theorem records_openFile (journal : Journal) : journal.openFile.2.records = journal.records :=
  congrArg (List.map JournalFrame.record) journal.frames_openFile

theorem records_cut_isPrefix (journal : Journal) (n : Nat) :
    (journal.cut n).records <+: journal.records :=
  (completeFrames_isPrefix n journal.frames).map JournalFrame.record

theorem frames_cut_of_le {journal : Journal} {n : Nat} (h : totalBytes journal.frames ≤ n) :
    (journal.cut n).frames = journal.frames := by
  have hframes : completeFrames n (journal.frames ++ []) =
      journal.frames ++ completeFrames (n - totalBytes journal.frames) [] :=
    completeFrames_append h
  rwa [List.append_nil, completeFrames, List.append_nil] at hframes

@[simp] theorem records_appended (journal : Journal) (record : JournalRecord) :
    (journal.appended record).records = journal.records ++ [record] := by
  simp [records, appended]

end Journal

namespace EngineCore

variable {epoch : FabricEpoch} {record : JournalRecord} {config : EngineConfig}
    {result : Except Status Unit}

/-- The records of the journal; none without one. -/
def records (core : EngineCore) : List JournalRecord :=
  (core.journal.map Journal.records).getD []

/-- A journal is attached and in use. -/
def Durable (core : EngineCore) : Prop := core.journal.isSome = true ∧ core.journalReady = true

theorem Durable.exists_journal {core : EngineCore} (h : core.Durable) :
    ∃ journal, core.journal = some journal ∧ core.records = journal.records := by
  obtain ⟨journal, hjournal⟩ := Option.isSome_iff_exists.mp h.1
  exact ⟨journal, hjournal, by rw [records, hjournal]; rfl⟩

/-- A write leaves the records as they were or adds the record, which success does. -/
theorem records_of_writeJournal {core : EngineCore} (h : core.Durable) {journal : Option Journal}
    (hwrite : writeJournal core.journal core.journalReady record = (result, journal)) :
    ({ core with journal } : EngineCore).Durable ∧
      (({ core with journal } : EngineCore).records = core.records ++ [record] ∨
        (∃ s, result = .error s) ∧
          ({ core with journal } : EngineCore).records = core.records) := by
  obtain ⟨j, hj, hrecords⟩ := h.exists_journal
  rw [hj, h.2] at hwrite
  obtain ⟨rfl, rfl⟩ := Prod.mk.inj hwrite
  refine ⟨⟨rfl, h.2⟩, ?_⟩
  rw [hrecords]
  exact (j.records_append record).symm

theorem records_write (core : EngineCore) {journal : Option Journal}
    (hwrite : writeJournal core.journal core.journalReady record = (result, journal)) :
    ({ core with journal } : EngineCore).records = core.records ∨
      ({ core with journal } : EngineCore).records = core.records ++ [record] := by
  unfold writeJournal at hwrite
  split at hwrite
  · rename_i hjournal
    obtain ⟨-, rfl⟩ := Prod.mk.inj hwrite
    exact Or.inl (by rw [records, records, hjournal])
  · rename_i j hjournal
    split at hwrite
    · obtain ⟨-, rfl⟩ := Prod.mk.inj hwrite
      have hrecords : core.records = j.records := by rw [records, hjournal]; rfl
      rw [hrecords]
      exact (j.records_append record).imp (fun h => h.2) id
    · obtain ⟨-, rfl⟩ := Prod.mk.inj hwrite
      exact Or.inl (by rw [records, records, hjournal])

theorem records_compaction (core : EngineCore) :
    core.compactLocked.2.records = core.records ∨
      core.compactLocked.2.records = core.compactedRecords := by
  unfold compactLocked
  split
  · exact Or.inl rfl
  · rename_i j hjournal
    split
    · have hrecords : core.records = j.records := by rw [records, hjournal]; rfl
      rw [hrecords]
      exact j.records_compact core.compactedRecords
    · exact Or.inl rfl

theorem records_compactLocked {core : EngineCore} (h : core.Durable) :
    core.compactLocked.2.Durable ∧
      (core.compactLocked.2.records = core.records ∨
        core.compactLocked.2.records = core.compactedRecords) := by
  obtain ⟨j, hj, hrecords⟩ := h.exists_journal
  unfold compactLocked
  simp only [hj, h.2, ↓reduceIte]
  exact ⟨⟨rfl, rfl⟩, hrecords ▸ j.records_compact core.compactedRecords⟩

@[simp] theorem records_onDisk (core : EngineCore) (disk : List DiskOutcome) :
    (core.onDisk disk).records = core.records := by
  unfold onDisk records
  cases core.journal <;> rfl

theorem Durable.onDisk {core : EngineCore} (h : core.Durable) (disk : List DiskOutcome) :
    (core.onDisk disk).Durable := by
  refine ⟨?_, h.2⟩
  simp [EngineCore.onDisk, h.1]

/-! ### A disk without errors -/

/-- A journal is in use and no write to it fails for the disk. -/
structure Attached (core : EngineCore) (journal : Journal) : Prop where
  journal_eq : core.journal = some journal
  ready : core.journalReady = true
  clear : journal.disk = []

namespace Attached

variable {core : EngineCore} {journal : Journal}

theorem records_eq (h : core.Attached journal) : core.records = journal.records := by
  rw [records, h.journal_eq]
  rfl

theorem write (h : core.Attached journal) {journal' : Option Journal}
    (hwrite : writeJournal core.journal core.journalReady record = (result, journal')) :
    result = .ok () ∧ journal' = some (journal.appended record) ∨
      (∃ status, result = .error status) ∧ journal' = some journal := by
  rw [h.journal_eq, h.ready] at hwrite
  obtain ⟨rfl, rfl⟩ := Prod.mk.inj hwrite
  by_cases haccepts : journal.Accepts record
  · left
    rw [Journal.append_of_disk_nil h.clear haccepts]
    exact ⟨rfl, rfl⟩
  · right
    rcases hopen : journal.isOpen with _ | _
    · have happend : journal.append record =
          (.error ⟨.invalidArgument, "journal is not open"⟩, journal) := by
        simp [Journal.append, hopen]
      rw [happend]
      exact ⟨⟨_, rfl⟩, rfl⟩
    · have hlength : record.payload.length > journal.options.maxPayload :=
        Nat.lt_of_not_le fun hle => haccepts ⟨hopen, hle⟩
      have happend : journal.append record = (.error ⟨.oversizedInput,
          "journal payload exceeds the configured bound"⟩, journal) := by
        simp [Journal.append, hopen, hlength]
      rw [happend]
      exact ⟨⟨_, rfl⟩, rfl⟩

theorem appended (h : core.Attached journal) (record : JournalRecord) :
    ({ core with journal := some (journal.appended record) } : EngineCore).Attached
      (journal.appended record) :=
  ⟨rfl, h.ready, h.clear⟩

theorem onDisk_nil (h : core.Attached journal) : core.onDisk [] = core := by
  have hjournal : core.journal.map (fun journal => { journal with disk := [] }) = core.journal := by
    rw [h.journal_eq, Option.map_some, ← h.clear]
  rw [EngineCore.onDisk, hjournal]

theorem after_invalid (h : core.Attached journal) (hopen : journal.isOpen = true)
    (hpayload : 149 ≤ journal.options.maxPayload) {request : AdmissionRequest} {status : Status}
    (hinvalid : request.validate = .error status) (claim : ClaimContext) :
    ∃ record, (core.after { operation := .admitRequest request claim }).Attached
      (journal.appended (.admissionRefused record)) := by
  have hafter : core.after { operation := .admitRequest request claim } =
      (core.refuse request claim ⟨.rejectPolicy, constraintOf .requestContract "request"
        request.request.toNat status.message⟩ none false).2 := by
    unfold after next
    rw [h.onDisk_nil, perform, answering_snd]
    simp only [admitLocked, verdict, hinvalid]
  rw [hafter, refuse, answer_snd]
  generalize core.refusal request claim _ none = decision
  generalize hcall : core.consumeIdentity.finishRefusal decision request false = outcome
  have haccepts : journal.Accepts (.admissionRefused (core.consumeIdentity.toRecord decision)) :=
    ⟨hopen, (length_encode_decision _).trans_le hpayload⟩
  have happend : writeJournal core.consumeIdentity.journal core.consumeIdentity.journalReady
      (.admissionRefused (core.consumeIdentity.toRecord decision)) =
        (.ok (), some (journal.appended
          (.admissionRefused (core.consumeIdentity.toRecord decision)))) := by
    have hjournal : core.consumeIdentity.journal = some journal := h.journal_eq
    have hready : core.consumeIdentity.journalReady = true := h.ready
    rw [hjournal, hready, writeJournal]
    simp only [Journal.append_of_disk_nil h.clear haccepts, ↓reduceIte]
  cases finishRefusal_effect hcall with
  | unwritten hwrite =>
    rw [happend] at hwrite
    cases hwrite
  | settled hwrite =>
    rw [happend] at hwrite
    obtain ⟨-, rfl⟩ := Prod.mk.inj hwrite
    exact ⟨_, rfl, h.ready, h.clear⟩

theorem compactIfNeeded (h : core.Attached journal)
    (hcount : journal.frameCount < journal.options.compactAtRecords) :
    core.compactIfNeededLocked = (.ok (), core) := by
  unfold compactIfNeededLocked
  simp only [h.journal_eq, h.ready, true_and, Nat.not_le.mpr hcount, ↓reduceIte]

end Attached

theorem Durable.attached {core : EngineCore} (h : core.Durable) :
    ∃ journal, (core.onDisk []).Attached journal := by
  obtain ⟨journal, hjournal, -⟩ := h.exists_journal
  exact ⟨{ journal with disk := [] }, by rw [EngineCore.onDisk, hjournal]; rfl, h.2, rfl⟩

theorem Attached.durable {core : EngineCore} {journal : Journal} (h : core.Attached journal) :
    core.Durable := ⟨by rw [h.journal_eq]; rfl, h.ready⟩

/-! ### The frames of a compaction -/

theorem mem_compactedRecords {core : EngineCore} (h : record ∈ core.compactedRecords) :
    record = .bootEpoch (makeBootRecord core.epoch core.incarnation) ∨
      (∃ policy, core.policy = some policy ∧ record = .policyConfig policy) ∨
      (∃ retained ∈ core.history.inAuditOrder, record ∈ compactedFrames core.ledger retained) ∨
      ∃ mark, record = .auditMark mark := by
  simp only [compactedRecords, compactedState, List.cons_append, List.mem_cons, List.mem_append,
    Option.mem_toList, Option.map_eq_some_iff, List.mem_flatMap, List.not_mem_nil, or_false] at h
  rcases h with h | (⟨policy, hpolicy, rfl⟩ | ⟨retained, hretained, hframe⟩) | h
  · exact Or.inl h
  · exact Or.inr (Or.inl ⟨policy, hpolicy, rfl⟩)
  · exact Or.inr (Or.inr (Or.inl ⟨retained, hretained, hframe⟩))
  · exact Or.inr (Or.inr (Or.inr ⟨_, h⟩))

theorem mem_compactedFrames {ledger : AdmittedLoadLedger} {retained : DecisionRecord}
    (h : record ∈ compactedFrames ledger retained) :
    (retained.outcome.isAdmitting = true ∧ ledger.liveAmounts retained.decision ≠ []) ∧
      (record = .admissionPrepare
          (compactedPrepare retained (ledger.liveAmounts retained.decision)) ∨
        record = .admissionCommit retained) ∨
      ¬ (retained.outcome.isAdmitting = true ∧ ledger.liveAmounts retained.decision ≠ []) ∧
        record = .admissionRefused retained := by
  unfold compactedFrames at h
  simp only at h
  split at h
  · rename_i hlive
    exact Or.inl ⟨hlive, by simpa using h⟩
  · rename_i hdead
    exact Or.inr ⟨hdead, by simpa using h⟩

theorem revocation_notMem_compactedRecords {core : EngineCore}
    (revocation : RevocationRecord) :
    JournalRecord.revocation revocation ∉ core.compactedRecords := by
  intro h
  rcases mem_compactedRecords h with h | ⟨_, -, h⟩ | ⟨_, -, hframe⟩ | ⟨_, h⟩
  · cases h
  · cases h
  · rcases mem_compactedFrames hframe with ⟨-, h | h⟩ | ⟨-, h⟩ <;> cases h
  · cases h

/-! ### Restarts -/

/-- The engine that a recovery resumes with. -/
def recoveredCore (config : EngineConfig) (state : ReplayState) (ledger : AdmittedLoadLedger)
    (epoch : FabricEpoch) (journal : Option Journal) : EngineCore :=
  { EngineCore.fresh config with
    toAuthority := (((EngineCore.fresh config).toAuthority.withPolicy state.policy
      state.policyValid).withEpoch epoch config.incarnation).withPending
        (ledger.markAllRequiringRevalidation.liveDecisions ≠ 0)
    ledger := ledger.markAllRequiringRevalidation
    history := trimHistory state.history ledger
    attempts := state.attempts
    audit := state.recoveredAudit
    nextDecisionSequence := state.maxDecisionSequence + 1
    journal
    journalReady := true }

theorem boot_eq_recoveredCore {journal : Journal} (h : (boot config journal).1.status = none) :
    ∃ opened state ledger epoch journal', journal.openFile = (.ok (), opened) ∧
      (EngineCore.fresh config).beginReplay.replayFrames journal.frames = (.ok (), state) ∧
      restoreLedger {} state.livePrepares = (.ok (), ledger) ∧
      nextEpoch config state.recoveredEpoch = .ok epoch ∧
      writeJournal (some opened) true (.bootEpoch (makeBootRecord epoch config.incarnation)) =
        (.ok (), journal') ∧
      (boot config journal).2 = recoveredCore config state ledger epoch journal' := by
  have heffect := boot_effect config journal
  rw [h] at heffect
  generalize (boot config journal).2 = core at heffect ⊢
  cases heffect with
  | @read opened _ _ hopen hrecover =>
    cases hrecover with
    | @restored state ledger _ _ hreplay hrestore hfinish =>
      cases hfinish with
      | @resumed epoch journal' hepoch hboot =>
        exact ⟨opened, state, ledger, epoch, journal', hopen, hreplay, hrestore, hepoch, hboot, rfl⟩

theorem records_boot {journal : Journal} (h : (boot config journal).1.status = none) :
    (boot config journal).2.Durable ∧
      (boot config journal).2.records = journal.records ++
        [.bootEpoch (makeBootRecord (boot config journal).2.epoch config.incarnation)] := by
  obtain ⟨opened, state, ledger, epoch, journal', hopen, -, -, -, hwrite, heq⟩ :=
    boot_eq_recoveredCore h
  rw [heq]
  obtain ⟨rfl⟩ : some (opened.append _).2 = journal' := congrArg Prod.snd hwrite
  have hok : (opened.append (.bootEpoch (makeBootRecord epoch config.incarnation))).1 = .ok () :=
    congrArg Prod.fst hwrite
  have hrecords : opened.records = journal.records := by
    rw [← journal.records_openFile, hopen]
  refine ⟨⟨rfl, rfl⟩, ?_⟩
  rcases opened.records_append (.bootEpoch (makeBootRecord epoch config.incarnation)) with
    ⟨⟨s, hs⟩, -⟩ | happended
  · rw [hok] at hs
    cases hs
  · exact hrecords ▸ happended

theorem records_boot_cases (config : EngineConfig) (journal : Journal) :
    (boot config journal).2.records = journal.records ∨ ∃ record,
      (boot config journal).2.records = journal.records ++ [.bootEpoch record] := by
  have heffect := boot_effect config journal
  generalize (boot config journal).2 = core, (boot config journal).1.status = status at heffect ⊢
  have hopened : ∀ {result : Except Status Unit} {opened : Journal},
      journal.openFile = (result, opened) → opened.records = journal.records := by
    intro result opened hopen
    rw [← journal.records_openFile, hopen]
  cases heffect with
  | unopened hopen | unread hopen => exact Or.inl (hopened hopen)
  | @read opened _ _ hopen hrecover =>
    cases hrecover with
    | refused _ | unrestored _ _ => exact Or.inl (hopened hopen)
    | @restored state ledger _ _ _ _ hfinish =>
      have hwrite : ∀ {epoch : FabricEpoch} {result : Except Status Unit}
          {journal' : Option Journal}, writeJournal (some opened) true
            (.bootEpoch (makeBootRecord epoch config.incarnation)) = (result, journal') →
          (journal'.map Journal.records).getD [] = journal.records ∨ ∃ record,
            (journal'.map Journal.records).getD [] = journal.records ++ [.bootEpoch record] := by
        intro epoch result journal' hwrite
        rw [← hopened hopen]
        exact (records_write { fresh config with
          journal := some opened, journalReady := true } hwrite).imp id fun h => ⟨_, h⟩
      cases hfinish with
      | fenced _ => exact Or.inl (hopened hopen)
      | unwritten _ hboot | resumed _ hboot => exact hwrite hboot

/-! ### Boot epochs -/

/-- The journal has a boot record of an epoch. -/
def HasBoot (records : List JournalRecord) (epoch : FabricEpoch) : Prop :=
  ∃ record, .bootEpoch record ∈ records ∧ record.epoch = epoch

instance (records : List JournalRecord) (epoch : FabricEpoch) :
    Decidable (HasBoot records epoch) :=
  decidable_of_iff (records.any fun
    | .bootEpoch record => record.epoch = epoch
    | _ => false) <| by
    rw [List.any_eq_true]
    constructor
    · rintro ⟨record, hmem, hrecord⟩
      cases record with
      | bootEpoch record => exact ⟨record, hmem, of_decide_eq_true hrecord⟩
      | _ => cases hrecord
    · rintro ⟨record, hmem, hepoch⟩
      exact ⟨.bootEpoch record, hmem, decide_eq_true hepoch⟩

theorem HasBoot.mono {records records' : List JournalRecord} (h : HasBoot records epoch)
    (hsubset : records ⊆ records') : HasBoot records' epoch := by
  obtain ⟨record, hmem, hepoch⟩ := h
  exact ⟨record, hsubset hmem, hepoch⟩

theorem hasBoot_compactedRecords (core : EngineCore) : HasBoot core.compactedRecords core.epoch :=
  ⟨makeBootRecord core.epoch core.incarnation, by simp [compactedRecords, compactedState], rfl⟩

theorem HasBoot.lt_epoch_boot {journal : Journal} (h : HasBoot journal.records epoch)
    (hstatus : (boot config journal).1.status = none) : epoch < (boot config journal).2.epoch := by
  obtain ⟨opened, state, ledger, next, journal', -, hreplay, -, hnext, -, heq⟩ :=
    boot_eq_recoveredCore hstatus
  obtain ⟨record, hrecord, rfl⟩ := h
  obtain ⟨frame, hframe, hkind⟩ := List.mem_map.mp hrecord
  have hle := ReplayState.bootEpoch_le_of_replayFrames hreplay hframe
  rw [hkind] at hle
  rw [heq]
  exact UInt64.lt_of_le_of_lt (UInt64.le_iff_toNat_le.mpr hle) (lt_nextEpoch hnext)

end EngineCore

end AdmissionFabric
