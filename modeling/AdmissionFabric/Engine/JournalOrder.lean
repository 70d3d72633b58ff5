import AdmissionFabric.Engine.JournalEffects
import AdmissionFabric.Engine.LedgerRuns

/-!
# The order of the journal

The decision frames of a journal have different identities and different audit sequences, all
behind the counters of the engine that writes it. This holds after every operation, and of every
prefix of the file, so a recovery finds it; a recovery that resumes with counters ahead of the
decision frames is consistent again.
-/

namespace AdmissionFabric

variable {config : EngineConfig} {prepare : PrepareRecord} {record : JournalRecord}

/-- Different decisions under different audit sequences. -/
def Apart (record record' : DecisionRecord) : Prop :=
  record.decision ≠ record'.decision ∧ record.audit ≠ record'.audit

namespace EngineCore

variable {ledger : AdmittedLoadLedger}

/-- The decision frames are of different decisions, behind the counters, without repetitions. -/
structure OrderedJournal (core : EngineCore) : Prop where
  apart : (decisionsIn core.records).Pairwise Apart
  behind : ∀ record ∈ decisionsIn core.records, record.decision ≠ 0 ∧
    record.decision < core.nextDecisionSequence ∧ record.audit < core.audit
  intents : ∀ prepare, .admissionPrepare prepare ∈ core.records →
    (prepare.amounts.map Prod.fst).Nodup

/-- The books are kept and the journal is in order. -/
structure Sound (core : EngineCore) : Prop where
  consistent : core.Consistent
  ordered : core.OrderedJournal

variable {core core' : EngineCore}

/-! ### Records that are written -/

namespace OrderedJournal

theorem mono (h : core.OrderedJournal) (hrecords : core'.records = core.records)
    (hnext : core.nextDecisionSequence ≤ core'.nextDecisionSequence)
    (haudit : core.audit ≤ core'.audit) : core'.OrderedJournal where
  apart := hrecords ▸ h.apart
  behind record hrecord := by
    have hbehind := h.behind record (hrecords ▸ hrecord)
    exact ⟨hbehind.1, Nat.lt_of_lt_of_le hbehind.2.1 hnext, Nat.lt_of_lt_of_le hbehind.2.2 haudit⟩
  intents prepare hprepare := h.intents prepare (hrecords ▸ hprepare)

theorem append (h : core.OrderedJournal) (hrecords : core'.records = core.records ++ [record])
    (hdecision : record.decision? = none) (hintent : ∀ prepare, record = .admissionPrepare prepare →
      (prepare.amounts.map Prod.fst).Nodup)
    (hnext : core.nextDecisionSequence ≤ core'.nextDecisionSequence)
    (haudit : core.audit ≤ core'.audit) : core'.OrderedJournal := by
  have hdecisions : decisionsIn core'.records = decisionsIn core.records := by
    rw [hrecords, decisionsIn_append]
    simp [decisionsIn, hdecision]
  refine ⟨hdecisions ▸ h.apart, fun record hrecord => ?_, fun prepare hprepare => ?_⟩
  · have hbehind := h.behind record (hdecisions ▸ hrecord)
    exact ⟨hbehind.1, Nat.lt_of_lt_of_le hbehind.2.1 hnext, Nat.lt_of_lt_of_le hbehind.2.2 haudit⟩
  · rw [hrecords] at hprepare
    rcases List.mem_append.mp hprepare with hprepare | hprepare
    · exact h.intents prepare hprepare
    · exact hintent prepare (List.mem_singleton.mp hprepare).symm

theorem appendDecision (h : core.OrderedJournal) (hpos : 0 < core.nextDecisionSequence)
    {decision : DecisionRecord} (hrecords : core'.records = core.records ++ [record])
    (hrecord : record.decision? = some decision)
    (hdecision : decision.decision = core.nextDecisionSequence)
    (haudit : decision.audit = core.audit)
    (hnext : core'.nextDecisionSequence = core.nextDecisionSequence + 1)
    (haudit' : core'.audit = core.audit + 1) : core'.OrderedJournal := by
  have hdecisions : decisionsIn core'.records = decisionsIn core.records ++ [decision] := by
    rw [hrecords, decisionsIn_append]
    simp [decisionsIn, hrecord]
  refine ⟨?_, fun r hr => ?_, fun prepare hprepare => ?_⟩
  · rw [hdecisions]
    refine List.pairwise_append.mpr ⟨h.apart, List.pairwise_singleton _ _, fun r hr r' hr' => ?_⟩
    obtain rfl := List.mem_singleton.mp hr'
    obtain ⟨-, hid, ha⟩ := h.behind r hr
    exact ⟨Nat.ne_of_lt (hdecision ▸ hid), Nat.ne_of_lt (haudit ▸ ha)⟩
  · rw [hdecisions] at hr
    rw [hnext, haudit']
    rcases List.mem_append.mp hr with hr | hr
    · obtain ⟨hne, hid, ha⟩ := h.behind r hr
      exact ⟨hne, Nat.lt_succ_of_lt hid, Nat.lt_succ_of_lt ha⟩
    · obtain rfl := List.mem_singleton.mp hr
      rw [hdecision, haudit]
      exact ⟨Nat.ne_of_gt hpos, Nat.lt_succ_self _, Nat.lt_succ_self _⟩
  · rw [hrecords] at hprepare
    rcases List.mem_append.mp hprepare with hprepare | hprepare
    · exact h.intents prepare hprepare
    · rw [← List.mem_singleton.mp hprepare] at hrecord
      cases hrecord

theorem write (h : core.OrderedJournal) (hdecision : record.decision? = none)
    (hintent : ∀ prepare, record = .admissionPrepare prepare →
      (prepare.amounts.map Prod.fst).Nodup) {result : Except Status Unit}
    {journal : Option Journal}
    (hwrite : writeJournal core.journal core.journalReady record = (result, journal)) :
    ({ core with journal } : EngineCore).OrderedJournal := by
  rcases core.records_write hwrite with hrecords | hrecords
  · exact h.mono hrecords le_rfl le_rfl
  · exact h.append hrecords hdecision hintent le_rfl le_rfl

end OrderedJournal

/-! ### Compaction -/

theorem decisionsIn_compactedRecords (core : EngineCore) :
    decisionsIn core.compactedRecords = core.history.inAuditOrder := by
  have hframes : ∀ records : List DecisionRecord,
      decisionsIn (records.flatMap (compactedFrames core.ledger)) = records := by
    intro records
    induction records with
    | nil => rfl
    | cons record rest ih =>
      rw [List.flatMap_cons, decisionsIn_append, ih]
      unfold compactedFrames
      simp only
      split <;> rfl
  have hpolicy : decisionsIn (core.policy.map JournalRecord.policyConfig).toList = [] := by
    cases core.policy <;> rfl
  rw [compactedRecords, compactedState, ← List.singleton_append, decisionsIn_append,
    decisionsIn_append, decisionsIn_append, hpolicy, hframes]
  exact List.append_nil _

theorem prepare_of_mem_compactedRecords (h : .admissionPrepare prepare ∈ core.compactedRecords) :
    ∃ record ∈ core.history.inAuditOrder,
      prepare = compactedPrepare record (core.ledger.liveAmounts record.decision) := by
  rcases mem_compactedRecords h with h | ⟨_, -, h⟩ | ⟨record, hrecord, hframe⟩ | ⟨_, h⟩
  · cases h
  · cases h
  · refine ⟨record, hrecord, ?_⟩
    rcases mem_compactedFrames hframe with ⟨-, h | h⟩ | ⟨-, h⟩
    · exact JournalRecord.admissionPrepare.inj h
    · cases h
    · cases h
  · cases h

theorem entriesOf_perm_held (hwf : ledger.WellFormed) (d : AdmissionDecisionId) :
    (ledger.entriesOf d).Perm (ledger.held d) := by
  cases hd : ledger.byDecision[d]? with
  | some es =>
    rw [AdmittedLoadLedger.held_of_getElem? hd]
    exact AdmittedLoadLedger.Labelled.filter_entries_perm hwf.decision_eq hd
  | none =>
    have hnil : ledger.entriesOf d = [] := by
      rw [List.eq_nil_iff_forall_not_mem]
      intro e he
      obtain ⟨es, hes, -⟩ := hwf.mem_filter_entries.mp he
      rw [hd] at hes
      cases hes
    rw [hnil, AdmittedLoadLedger.held, Std.ExtTreeMap.getD_eq_getD_getElem?, hd]
    exact List.Perm.refl _

theorem nodup_liveAmounts (hwf : ledger.WellFormed) (d : AdmissionDecisionId) :
    ((ledger.liveAmounts d).map Prod.fst).Nodup := by
  have hmap : (ledger.liveAmounts d).map Prod.fst = (ledger.entriesOf d).map (·.resource) := by
    simp [AdmittedLoadLedger.liveAmounts, Function.comp_def]
  rw [hmap, ((entriesOf_perm_held hwf d).map _).nodup_iff, AdmittedLoadLedger.held,
    Std.ExtTreeMap.getD_eq_getD_getElem?]
  cases hd : ledger.byDecision[d]? with
  | some entries => exact hwf.nodup d entries hd
  | none => exact List.nodup_nil

theorem Sound.compact (h : core.Sound) : core.compactLocked.2.Sound := by
  refine ⟨Consistent.preserved.compact core h.consistent, ?_⟩
  have hsame : core.compactLocked.2.nextDecisionSequence = core.nextDecisionSequence ∧
      core.compactLocked.2.audit = core.audit := by
    rw [compactLocked_snd]
    exact ⟨rfl, rfl⟩
  rcases core.records_compaction with hrecords | hrecords
  · exact h.ordered.mono hrecords (Nat.le_of_eq hsame.1.symm) (Nat.le_of_eq hsame.2.symm)
  · have hidx := h.consistent.indexed
    refine ⟨?_, fun record hrecord => ?_, fun prepare hprepare => ?_⟩
    · rw [hrecords, decisionsIn_compactedRecords]
      refine List.Pairwise.imp₂ (fun r r' hid haudit => ⟨hid, Nat.ne_of_lt haudit⟩)
        (List.pairwise_map.mp hidx.nodup_decisions_inAuditOrder) hidx.pairwise_inAuditOrder
    · rw [hrecords, decisionsIn_compactedRecords] at hrecord
      have hfind := hidx.find_of_mem_inAuditOrder hrecord
      rw [hsame.1, hsame.2]
      exact ⟨(hidx.listed _ _ hfind).2.1, h.consistent.below _ _ hfind⟩
    · rw [hrecords] at hprepare
      obtain ⟨record, -, rfl⟩ := prepare_of_mem_compactedRecords hprepare
      exact nodup_liveAmounts h.consistent.wellFormed record.decision

theorem Sound.compactIfNeeded (h : core.Sound) : core.compactIfNeededLocked.2.Sound := by
  unfold compactIfNeededLocked
  split
  · exact h
  · split
    · exact h.compact
    · exact h

/-! ### Transactions -/

theorem ofStores_sound : OfStores Sound := by
  intro core core' hstores h
  have hrecords : core'.records = core.records := by
    rw [records, records, show core'.journal = core.journal from congrArg Stores.journal hstores]
  exact ⟨h.consistent.of_stores hstores, h.ordered.mono hrecords
    (Nat.le_of_eq (congrArg Stores.nextDecisionSequence hstores).symm)
    (Nat.le_of_eq (congrArg Stores.audit hstores).symm)⟩

theorem preserved_sound : Preserved Sound where
  refusal core request claim reason evidence recordAttempt h := by
    refine ⟨h.consistent.refusal request claim reason evidence recordAttempt, ?_⟩
    have hdecision := core.decision_refusal request claim reason evidence
    have haudit := core.audit_refusal request claim reason evidence
    generalize core.refusal request claim reason evidence = decision at hdecision haudit ⊢
    generalize hcall : core.consumeIdentity.finishRefusal _ _ _ = outcome
    have hwritten : ∀ {result : Except Status Unit} {journal : Option Journal},
        writeJournal core.journal core.journalReady
          (.admissionRefused (core.consumeIdentity.toRecord decision)) = (result, journal) →
        ({ core.consumeIdentity with journal } : EngineCore).OrderedJournal := by
      intro result journal hwrite
      rcases core.consumeIdentity.records_write hwrite with hrecords | hrecords
      · exact h.ordered.mono hrecords (Nat.le_succ _) (Nat.le_succ _)
      · exact h.ordered.appendDecision h.consistent.next_pos hrecords rfl hdecision haudit rfl rfl
    cases finishRefusal_effect hcall with
    | unwritten hwrite => exact hwritten hwrite
    | settled hwrite => exact (hwritten hwrite).mono rfl le_rfl le_rfl
  grant core request claim grant hverdict h := by
    have hconsistent := h.consistent.grant hverdict
    have hnodup := nodup_amountsOf (verdict_eq_grant hverdict).2.2.2
    have hdecision := core.decision_admission request claim grant
    have haudit := core.audit_admission request claim grant
    generalize core.admission request claim grant = decision at hdecision haudit hconsistent ⊢
    generalize hcall : core.consumeIdentity.finishAdmission _ _ _ = outcome at hconsistent ⊢
    -- the intent is written under the old counters, the commit under the new ones
    have hprepared : ∀ {result : Except Status Unit} {journal : Option Journal},
        writeJournal core.journal core.journalReady (.admissionPrepare
          (core.consumeIdentity.prepareOf decision (amountsOf grant))) = (result, journal) →
        ({ core with journal } : EngineCore).OrderedJournal := by
      intro result journal hwrite
      exact h.ordered.write rfl (by rintro prepare ⟨⟩; exact hnodup) hwrite
    have hcommitted : ∀ {result : Except Status Unit} {journal journal' : Option Journal},
        ({ core with journal } : EngineCore).OrderedJournal →
        writeJournal journal core.journalReady
          (.admissionCommit (core.consumeIdentity.liveRecord decision)) = (result, journal') →
        ({ core.consumeIdentity with journal := journal' } : EngineCore).OrderedJournal := by
      intro result journal journal' hordered hwrite
      rcases records_write { core.consumeIdentity with journal } hwrite
        with hrecords | hrecords
      · exact hordered.mono hrecords (Nat.le_succ _) (Nat.le_succ _)
      · exact hordered.appendDecision h.consistent.next_pos hrecords rfl hdecision haudit rfl rfl
    cases finishAdmission_effect hcall with
    | unprepared hprepare | unreserved hprepare _ =>
      exact ⟨hconsistent, (hprepared hprepare).mono rfl (Nat.le_succ _) (Nat.le_succ _)⟩
    | uncommitted hprepare _ hcommit =>
      exact ⟨hconsistent, (hcommitted (hprepared hprepare) hcommit).mono rfl le_rfl
        le_rfl⟩
    | committed hprepare _ hcommit =>
      rw [compactIfNeededLocked_snd] at hconsistent
      refine Sound.compactIfNeeded ⟨hconsistent.mono rfl rfl le_rfl le_rfl, ?_⟩
      exact (hcommitted (hprepared hprepare) hcommit).mono rfl le_rfl le_rfl
  release core d reason explanation _ h := by
    refine ⟨h.consistent.release d reason .revoked explanation, ?_⟩
    generalize hcall : core.releaseDecisionLocked d reason .revoked explanation = outcome
    cases releaseDecisionLocked_effect hcall with
    | unheld _ => exact h.ordered
    | unwritten _ hwrite | stuck _ hwrite _ => exact h.ordered.write rfl (by simp) hwrite
    | @unmarked _ journal journal' _ ledger _ hwrite _ hmark =>
      have hreleased : ({ core with journal, ledger } : EngineCore).OrderedJournal :=
        (h.ordered.write rfl (by simp) hwrite).mono rfl le_rfl le_rfl
      exact hreleased.write rfl (by simp) hmark
    | @released journal journal' _ ledger _ hwrite _ hmark =>
      have hreleased : ({ core with journal, ledger } : EngineCore).OrderedJournal :=
        (h.ordered.write rfl (by simp) hwrite).mono rfl le_rfl le_rfl
      exact (hreleased.write rfl (by simp) hmark).mono rfl le_rfl le_rfl
  mark core d f hf _ h :=
    ⟨h.consistent.modify d hf, h.ordered.mono rfl le_rfl le_rfl⟩
  note core record hnote h := by
    refine ⟨Consistent.preserved.note core record hnote h.consistent, ?_⟩
    refine h.ordered.write ?_ ?_ rfl
    · cases hnote <;> rfl
    · cases hnote <;> simp
  compact core h := h.compact
  clearFlags core h := ⟨Consistent.preserved.clearFlags core h.consistent,
    h.ordered.mono rfl le_rfl le_rfl⟩
  tidy core core' hstores _ h := ofStores_sound core core' hstores h

theorem Sound.perform (h : core.Sound) (operation : Operation) :
    (core.perform operation).2.Sound :=
  preserved_sound.perform ofStores_sound h operation

theorem Sound.onDisk (h : core.Sound) (disk : List DiskOutcome) : (core.onDisk disk).Sound :=
  ⟨h.consistent.mono rfl rfl le_rfl le_rfl,
    h.ordered.mono (core.records_onDisk disk) le_rfl le_rfl⟩

end EngineCore

/-! ### Recovery -/

namespace ReplayState

variable {done : List JournalRecord} {state state' : ReplayState}

theorem indexed_replayDecision (h : state.Sourced done) (hidx : state.history.Indexed)
    {original restored : DecisionRecord} (hrestores : Restores original restored)
    (hne : original.decision ≠ 0) (hapart : ∀ record ∈ decisionsIn done, Apart record original) :
    (state.replayDecision restored).history.Indexed := by
  -- a retained record comes from an earlier frame, which is apart from this one
  have hold : ∀ d record, state.history.find d = some record →
      d ≠ restored.decision ∧ record.audit ≠ restored.audit := by
    intro d record hfind
    obtain ⟨rfl, original', hmem, hrestores'⟩ := h.recorded d record hfind
    rw [hrestores.decision, hrestores.audit, hrestores'.decision, hrestores'.audit]
    exact hapart original' hmem
  refine hidx.insert (hrestores.decision ▸ hne) ?_ ?_
  · cases hfind : state.history.find restored.decision with
    | none => rfl
    | some record => exact absurd rfl (hold _ _ hfind).1
  · cases hindex : state.history.auditIndex[restored.audit]? with
    | none => rfl
    | some d =>
      obtain ⟨record, hrecord, hsame⟩ := hidx.recorded _ _ hindex
      exact absurd hsame (hold d record hrecord).2

theorem indexed_effect (h : state.Sourced done) (hidx : state.history.Indexed) {sequence : Nat}
    (heffect : Effect state sequence record state')
    (hapart : (decisionsIn (done ++ [record])).Pairwise Apart)
    (hne : ∀ original ∈ decisionsIn (done ++ [record]), original.decision ≠ 0) :
    state'.history.Indexed := by
  have hnew : ∀ original, record.decision? = some original → original.decision ≠ 0 ∧
      ∀ earlier ∈ decisionsIn done, Apart earlier original := by
    intro original hrecord
    have hsplit : decisionsIn (done ++ [record]) = decisionsIn done ++ [original] := by
      simp [decisionsIn, hrecord]
    rw [hsplit] at hapart hne
    exact ⟨hne original (by simp), fun earlier hearlier =>
      (List.pairwise_append.mp hapart).2.2 earlier hearlier original (by simp)⟩
  cases heffect with
  | boot | policy | prepare | release | auditMark => exact hidx
  | unprepared record _ _ =>
    obtain ⟨hne, hapart⟩ := hnew record rfl
    exact indexed_replayDecision h hidx (restores_restoredCommit record) hne hapart
  | @commit record prepared _ =>
    obtain ⟨hne, hapart⟩ := hnew record rfl
    exact indexed_replayDecision h hidx (restores_restoredCommit record) hne hapart
  | refused record =>
    obtain ⟨hne, hapart⟩ := hnew record rfl
    exact indexed_replayDecision h hidx (restores_refused record) hne hapart
  | revocation record =>
    simp only [replayRevocation]
    split
    · exact hidx
    · rename_i existing hexisting
      exact hidx.update (h.recorded _ existing hexisting).1

theorem indexed_of_replayFrames {frames : List JournalFrame}
    (h : (EngineCore.fresh config).beginReplay.replayFrames frames = (.ok (), state))
    (hapart : (decisionsIn (frames.map JournalFrame.record)).Pairwise Apart)
    (hne : ∀ record ∈ decisionsIn (frames.map JournalFrame.record), record.decision ≠ 0) :
    state.history.Indexed := by
  have hboth := replayFrames_induction
    (I := fun done state => state.Sourced done ∧ state.history.Indexed)
    (fun _ _ h => ⟨⟨h.1.recorded, h.1.pending, h.1.committed⟩, h.2⟩)
    (fun done state sequence record state' hdone heffect h => ?_) h
    ⟨sourced_beginReplay config, DecisionHistory.Indexed.empty config.historyCapacity⟩
  · exact hboth.2
  · have hsublist := (hdone.sublist).filterMap JournalRecord.decision?
    exact ⟨h.1.effect heffect, indexed_effect h.1 h.2 heffect (hapart.sublist hsublist)
      fun record hrecord => hne record (hsublist.subset hrecord)⟩

theorem Sourced.of_mem_livePrepares {records : List JournalRecord} (h : state.Sourced records)
    (hprepare : prepare ∈ state.livePrepares) :
    .admissionPrepare prepare ∈ records ∧
      ∃ record, state.history.find prepare.decision = some record ∧
        record.outcome.isAdmitting = true := by
  obtain ⟨hcommitted, hisLive⟩ := List.mem_filter.mp hprepare
  obtain ⟨entry, hentry, rfl⟩ := List.mem_map.mp hcommitted
  refine ⟨(h.committed entry.1 entry.2
    (Std.ExtTreeMap.mem_toList_iff_getElem?_eq_some.mp hentry)).2.1, ?_⟩
  unfold ReplayState.isLive at hisLive
  split at hisLive
  · cases hisLive
  · rename_i record hfind
    simp only [Bool.and_eq_true] at hisLive
    exact ⟨record, hfind, hisLive.1.1.1⟩

end ReplayState

namespace EngineCore

theorem sound_boot {journal : Journal} (hstatus : (boot config journal).1.status = none)
    (hapart : (decisionsIn journal.records).Pairwise Apart)
    (hne : ∀ record ∈ decisionsIn journal.records, record.decision ≠ 0)
    (hintents : ∀ prepare, .admissionPrepare prepare ∈ journal.records →
      (prepare.amounts.map Prod.fst).Nodup) (hahead : ∀ record ∈ decisionsIn journal.records,
      ∃ audit ∈ journal.records.filterMap ReplayState.nextAudit?, record.audit < audit) :
    (boot config journal).2.Sound := by
  obtain ⟨opened, state, ledger, epoch, journal', -, hreplay, hrestore, -, -, heq⟩ :=
    boot_eq_recoveredCore hstatus
  obtain ⟨-, hrecords⟩ := records_boot hstatus
  have hsourced := ReplayState.sourced_of_replayFrames hreplay
  have hidx := ReplayState.indexed_of_replayFrames hreplay hapart hne
  have hret := DecisionHistory.trimHistory_retires state.history ledger
  have hbehind : ∀ record ∈ decisionsIn journal.records,
      record.decision < state.maxDecisionSequence + 1 ∧ record.audit < state.recoveredAudit := by
    intro record hrecord
    obtain ⟨audit, haudit, hlt⟩ := hahead record hrecord
    exact ⟨Nat.lt_succ_of_le (ReplayState.decision_le_of_replayFrames hreplay hrecord),
      Nat.lt_of_lt_of_le hlt (ReplayState.nextAudit_le_of_replayFrames hreplay haudit)⟩
  have hlive : ∀ prepare ∈ state.livePrepares, _ := fun _ => hsourced.of_mem_livePrepares
  have hdecisions : decisionsIn (boot config journal).2.records = decisionsIn journal.records := by
    rw [hrecords, decisionsIn_append]
    exact List.append_nil _
  refine ⟨?_, ?_⟩
  · rw [heq]
    refine ⟨?_, hret.indexed hidx, Nat.succ_pos _, fun d record hfind => ?_, fun d hd => ?_⟩
    · exact (wellFormed_restoreLedger (fun prepare hprepare => hintents prepare
        (hlive prepare hprepare).1) .empty hrestore).setFlags true
    · obtain ⟨rfl, original, hmem, hrestores⟩ :=
        hsourced.recorded d record (hret.find_of_find d record hfind)
      rw [hrestores.decision, hrestores.audit]
      exact hbehind original hmem
    · change (ledger.setFlags true).holds d = true at hd
      rw [AdmittedLoadLedger.holds_setFlags] at hd
      change ∃ record, (trimHistory state.history ledger).find d = some record ∧ _
      rw [hret.find_of_holds d hd]
      rcases holds_of_restoreLedger hrestore hd with hold | ⟨prepare, hprepare, rfl⟩
      · simp [AdmittedLoadLedger.holds] at hold
      · exact (hlive prepare hprepare).2
  · refine ⟨hdecisions ▸ hapart, fun record hrecord => ?_, fun prepare hprepare => ?_⟩
    · rw [hdecisions] at hrecord
      rw [heq]
      exact ⟨hne record hrecord, hbehind record hrecord⟩
    · rw [hrecords] at hprepare
      rcases List.mem_append.mp hprepare with hprepare | hprepare
      · exact hintents prepare hprepare
      · cases List.mem_singleton.mp hprepare

end EngineCore

end AdmissionFabric
