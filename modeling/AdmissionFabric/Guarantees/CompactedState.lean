import AdmissionFabric.Engine.JournalOrder
import AdmissionFabric.Engine.RestoredState

/-!
# Recovery from a compacted journal

A compaction rebuilds the intents of live grants from the entries of the ledger and writes every
other admission as a refusal frame that keeps its outcome and its state. A recovery from exactly
these frames restores the policy and the load, entry by entry, and replays every retained record
with its outcome, its state and its reason.

The history is bounded, and what a recovery replayed is cut back to the bound before it resumes.
The history in memory is cut back only when a decision is added, so it may retain more: grants
protect their records, and a release takes the protection away without retiring anything.
-/

namespace AdmissionFabric

open AdmittedLoadLedger Std.ExtTreeMap

namespace DecisionHistory

theorem Indexed.length_inAuditOrder_le {history : DecisionHistory} (hidx : history.Indexed) :
    history.inAuditOrder.length ≤ history.records.size := by
  have hsubset : history.inAuditOrder.map (·.decision) ⊆ history.records.keys := by
    intro d hd
    obtain ⟨record, hrecord, rfl⟩ := List.mem_map.mp hd
    have hfind : history.records[record.decision]? = some record :=
      hidx.find_of_mem_inAuditOrder hrecord
    exact mem_keys.mpr (mem_iff_isSome_getElem?.mpr (by simp [hfind]))
  have hlength := (List.subperm_of_subset hidx.nodup_decisions_inAuditOrder hsubset).length_le
  rwa [List.length_map, length_keys] at hlength

end DecisionHistory

namespace EngineCore

variable {record : DecisionRecord} {state : ReplayState} {ledger : AdmittedLoadLedger}
    {core core' : EngineCore}

/-! ### The frames of a compaction -/

theorem releasedIn_compactedRecords (core : EngineCore) :
    releasedIn core.compactedRecords = [] := by
  refine List.filterMap_eq_nil_iff.mpr fun record hrecord => ?_
  rcases mem_compactedRecords hrecord with rfl | ⟨_, -, rfl⟩ | ⟨_, -, hframe⟩ | ⟨_, rfl⟩
  · rfl
  · rfl
  · rcases mem_compactedFrames hframe with ⟨-, rfl | rfl⟩ | ⟨-, rfl⟩ <;> rfl
  · rfl

theorem policyIn_compactedRecords (core : EngineCore) :
    policyIn core.compactedRecords = core.policy := by
  have hframes : (core.history.inAuditOrder.flatMap (compactedFrames core.ledger)).filterMap
      JournalRecord.policy? = [] := by
    refine List.filterMap_eq_nil_iff.mpr fun record hrecord => ?_
    obtain ⟨retained, -, hframe⟩ := List.mem_flatMap.mp hrecord
    rcases mem_compactedFrames hframe with ⟨-, rfl | rfl⟩ | ⟨-, rfl⟩ <;> rfl
  have hpolicy : (core.policy.map JournalRecord.policyConfig).toList.filterMap
      JournalRecord.policy? = core.policy.toList := by
    cases core.policy <;> rfl
  rw [policyIn, compactedRecords, compactedState, List.filterMap_append, List.cons_append,
    List.filterMap_cons_none rfl, List.filterMap_append, hpolicy, hframes]
  cases core.policy <;> rfl

theorem committed_compactedRecords (hrecord : record ∈ core.history.inAuditOrder)
    (hadmitting : record.outcome.isAdmitting = true)
    (hlive : core.ledger.liveAmounts record.decision ≠ []) :
    Committed core.compactedRecords
      (compactedPrepare record (core.ledger.liveAmounts record.decision)) record := by
  refine ⟨rfl, ?_⟩
  have hframes : compactedFrames core.ledger record =
      [.admissionPrepare (compactedPrepare record (core.ledger.liveAmounts record.decision)),
        .admissionCommit record] := by
    exact if_pos ⟨hadmitting, hlive⟩
  obtain ⟨older, newer, hsplit⟩ := List.append_of_mem hrecord
  have hinfix : compactedFrames core.ledger record <:+:
      core.history.inAuditOrder.flatMap (compactedFrames core.ledger) := by
    rw [hsplit, List.flatMap_append, List.flatMap_cons]
    exact List.infix_append' _ _ _
  rw [← hframes]
  exact hinfix.trans (List.infix_append _ _ _)

theorem nodup_decidedIn_compactedRecords (hidx : core.history.Indexed) :
    (decidedIn core.compactedRecords).Nodup := by
  rw [decidedIn, decisionsIn_compactedRecords]
  exact hidx.nodup_decisions_inAuditOrder

theorem zero_notMem_decidedIn_compactedRecords (hidx : core.history.Indexed) :
    0 ∉ decidedIn core.compactedRecords := by
  rw [decidedIn, decisionsIn_compactedRecords]
  intro hzero
  obtain ⟨record, hrecord, hdecision⟩ := List.mem_map.mp hzero
  exact (hidx.listed _ _ (hidx.find_of_mem_inAuditOrder hrecord)).2.1 hdecision

/-! ### The records -/

/-- A record as a recovery restores it. -/
def Copies (record restored : DecisionRecord) : Prop :=
  restored = { record with restoredFromDisk := true, ledgerLive := restored.ledgerLive }

theorem find_replayed_compacted (hidx : core.history.Indexed)
    (hcomplete : state.Complete core.compactedRecords) :
    (∀ d restored, state.history.find d = some restored →
      ∃ record, core.history.find d = some record ∧ Copies record restored) ∧
    ∀ d record, core.history.find d = some record →
      ∃ restored, state.history.find d = some restored ∧ Copies record restored := by
  have hcopies : ∀ d restored, state.history.find d = some restored →
      ∃ record, core.history.find d = some record ∧ Copies record restored := by
    intro d restored hfind
    obtain ⟨record, hmem, rfl, hrestores, hmarked⟩ := hcomplete.marked d restored hfind
    rw [decisionsIn_compactedRecords] at hmem
    refine ⟨record, hidx.find_of_mem_inAuditOrder hmem, ?_⟩
    rcases hmarked with ⟨hstate, hreason⟩ | ⟨revocation, hrevocation, -⟩
    · rw [Copies, hrestores, hstate, hreason]
    · exact absurd hrevocation (revocation_notMem_compactedRecords revocation)
  refine ⟨hcopies, fun d record hfind => ?_⟩
  obtain rfl : record.decision = d := (hidx.listed _ _ hfind).1
  have hmem : record ∈ decisionsIn core.compactedRecords := by
    rw [decisionsIn_compactedRecords]
    exact hidx.mem_inAuditOrder_iff.mpr hfind
  obtain ⟨restored, hrestored⟩ := hcomplete.recorded record hmem
  obtain ⟨record', hfind', hcopy⟩ := hcopies _ restored hrestored
  obtain rfl := Option.some.inj (hfind.symm.trans hfind')
  exact ⟨restored, hrestored, hcopy⟩

/-! ### The load -/

theorem entries_compactedPrepare
    (hstems : ∀ e ∈ ledger.entriesOf record.decision, e.StemsFrom record) :
    (compactedPrepare record (ledger.liveAmounts record.decision)).entries =
      (ledger.entriesOf record.decision).map fun e => { e with requiresRevalidation := false } := by
  rw [PrepareRecord.entries, newEntries, compactedPrepare,
    liveAmounts, List.map_map]
  refine List.map_congr_left fun e he => ?_
  obtain ⟨hdecision, hdemand, hpath, hepoch, hgeneration⟩ := hstems e he
  simp only [Function.comp_apply, ← hdecision, ← hdemand, ← hpath, ← hepoch, ← hgeneration]

theorem liveAmounts_ne_nil_iff (hwf : ledger.WellFormed) {d : AdmissionDecisionId} :
    ledger.liveAmounts d ≠ [] ↔ ledger.holds d = true := by
  rw [liveAmounts, ne_eq, List.map_eq_nil_iff,
    ← List.length_eq_zero_iff, (entriesOf_perm_held hwf d).length_eq, List.length_eq_zero_iff,
    held, AdmittedLoadLedger.holds, getD_eq_getD_getElem?]
  cases hd : ledger.byDecision[d]? with
  | some es => simpa using hwf.ne_nil d es hd
  | none => simp

theorem mem_livePrepares_compacted (h : core.Vouched)
    (hsourced : state.Sourced core.compactedRecords)
    (hcomplete : state.Complete core.compactedRecords)
    (hrecorded : ∀ d record, core.history.find d = some record →
      ∃ restored, state.history.find d = some restored ∧ restored.outcome = record.outcome ∧
        restored.state = record.state) {prepare : PrepareRecord} :
    prepare ∈ state.livePrepares ↔ ∃ record,
      core.history.find prepare.decision = some record ∧
        core.ledger.holds prepare.decision = true ∧
        prepare = compactedPrepare record (core.ledger.liveAmounts prepare.decision) := by
  rw [ReplayState.mem_livePrepares_iff hsourced]
  have hidx := h.consistent.indexed
  have hwf := h.consistent.wellFormed
  constructor
  · rintro ⟨hcommitted, -, -⟩
    have hmem := (hsourced.committed _ _ hcommitted).2.1
    rcases mem_compactedRecords hmem with hkind | ⟨_, -, hkind⟩ | ⟨record, hrecord, hframe⟩ |
      ⟨_, hkind⟩
    · cases hkind
    · cases hkind
    · rcases mem_compactedFrames hframe with ⟨⟨-, hamounts⟩, hkind | hkind⟩ | ⟨-, hkind⟩
      · obtain rfl := JournalRecord.admissionPrepare.inj hkind
        exact ⟨record, hidx.find_of_mem_inAuditOrder hrecord,
          (liveAmounts_ne_nil_iff hwf).mp hamounts, rfl⟩
      · cases hkind
      · cases hkind
    · cases hkind
  · rintro ⟨record, hfind, hholds, hprepare⟩
    have hdecision : record.decision = prepare.decision := (hidx.listed _ _ hfind).1
    obtain ⟨es, hes⟩ := Option.isSome_iff_exists.mp hholds
    obtain ⟨record', hfind', hforce, -⟩ := h.vouched _ es hes
    obtain rfl := Option.some.inj (hfind.symm.trans hfind')
    have hamounts := (liveAmounts_ne_nil_iff hwf).mpr hholds
    rw [← hdecision] at hfind hprepare hamounts
    have hcommitted := hcomplete.committed _ _ (committed_compactedRecords
      (hidx.mem_inAuditOrder_iff.mpr hfind) hforce.1 hamounts)
    rw [← hprepare] at hcommitted
    obtain ⟨restored, hrestored, houtcome, hstate⟩ := hrecorded _ record hfind
    refine ⟨hcommitted, ?_, restored, hdecision ▸ hrestored, ?_⟩
    · rw [hcomplete.released, releasedIn_compactedRecords]
      exact List.not_mem_nil
    · rwa [DecisionRecord.InForce, houtcome, hstate]

theorem held_restored_compacted (h : core.Vouched)
    (hlive : ∀ prepare, prepare ∈ state.livePrepares ↔ ∃ record,
      core.history.find prepare.decision = some record ∧
        core.ledger.holds prepare.decision = true ∧
        prepare = compactedPrepare record (core.ledger.liveAmounts prepare.decision))
    (hledger : ∀ (d : AdmissionDecisionId) es, ledger.byDecision[d]? = some es ↔
      ∃ prepare ∈ state.livePrepares, prepare.decision = d ∧ prepare.entries = es)
    (d : AdmissionDecisionId) :
    ledger.holds d = core.ledger.holds d ∧ (ledger.held d).Perm
      ((core.ledger.held d).map fun e => { e with requiresRevalidation := false }) := by
  have hidx := h.consistent.indexed
  have hwf := h.consistent.wellFormed
  cases hd : core.ledger.byDecision[d]? with
  | none =>
    have hfree : core.ledger.holds d = false := by simp [AdmittedLoadLedger.holds, hd]
    have hnone : ledger.byDecision[d]? = none := by
      refine Option.eq_none_iff_forall_not_mem.mpr fun es hes => ?_
      obtain ⟨prepare, hprepare, rfl, -⟩ := (hledger d es).mp hes
      obtain ⟨record, -, hholds, -⟩ := (hlive prepare).mp hprepare
      rw [hfree] at hholds
      cases hholds
    constructor
    · rw [hfree, AdmittedLoadLedger.holds, hnone]
      rfl
    · simp [held, getD_eq_getD_getElem?, hd, hnone]
  | some es =>
    have hholds := holds_of_getElem? hd
    obtain ⟨record, hfind, -, hstems⟩ := h.vouched d es hd
    obtain rfl : record.decision = d := (hidx.listed _ _ hfind).1
    have hperm := entriesOf_perm_held hwf record.decision
    have hprepare := (hlive (compactedPrepare record
      (core.ledger.liveAmounts record.decision))).mpr ⟨record, hfind, hholds, rfl⟩
    have hrestored := (hledger record.decision _).mpr ⟨_, hprepare, rfl, rfl⟩
    rw [entries_compactedPrepare fun e he => hstems e (by
      rw [← held_of_getElem? hd]
      exact hperm.mem_iff.mp he)] at hrestored
    refine ⟨(holds_of_getElem? hrestored).trans hholds.symm, ?_⟩
    rw [held_of_getElem? hrestored]
    exact hperm.map _

/-! ### Recovery -/

/-- What a recovery within a bound for the history has in common with the state that was
compacted: the policy, the load of every decision, and the retained records up to the trimming of
the history. -/
structure Recovers (core : EngineCore) (capacity : Nat) (core' : EngineCore) : Prop where
  policy : core'.policy = core.policy
  holds : ∀ d, core'.ledger.holds d = core.ledger.holds d
  held : ∀ d, (core'.ledger.held d).Perm
    ((core.ledger.held d).map fun e => { e with requiresRevalidation := true })
  records : ∃ replayed : DecisionHistory, ∃ ledger,
    replayed.capacity = capacity ∧
    (∀ d restored, replayed.find d = some restored →
      ∃ record, core.history.find d = some record ∧ Copies record restored) ∧
    (∀ d record, core.history.find d = some record →
      ∃ restored, replayed.find d = some restored ∧ Copies record restored) ∧
    core'.history = trimHistory replayed ledger ∧
    core'.ledger = ledger.markAllRequiringRevalidation
  kept : ∀ d record, core.history.find d = some record →
    core.ledger.holds d = true ∨ core.history.records.size ≤ capacity →
    ∃ restored, core'.history.find d = some restored ∧ Copies record restored

/-- A recovery from exactly the frames that a compaction writes restores the policy, the load and
every record, but for the records that its bounded history cannot retain. -/
theorem recovers_compacted
    (hreach : TransitionSystem.Reachable Starting after (fun _ _ => True) core)
    {config : EngineConfig} {journal : Journal} (hrecords : journal.records = core.compactedRecords)
    (hstatus : (boot config journal).1.status = none) :
    core.Recovers config.historyCapacity (boot config journal).2 := by
  have h := vouched_of_reachable hreach
  have hidx := h.consistent.indexed
  obtain ⟨state, ledger, hsourced, hcomplete, hcapacity, hsize, hpolicy, hhistory, hledger, hby⟩ :=
    restored_boot hstatus (hrecords ▸ nodup_decidedIn_compactedRecords hidx)
      (hrecords ▸ zero_notMem_decidedIn_compactedRecords hidx)
  rw [hrecords] at hsourced hcomplete hsize
  obtain ⟨hcopied, hcopies⟩ := find_replayed_compacted hidx hcomplete
  have hheld := held_restored_compacted h
    (fun _ => mem_livePrepares_compacted h hsourced hcomplete fun d record hfind => by
      obtain ⟨restored, hrestored, hcopy⟩ := hcopies d record hfind
      exact ⟨restored, hrestored, by rw [hcopy], by rw [hcopy]⟩) hby
  refine ⟨?_, fun d => ?_, fun d => ?_, ⟨state.history, ledger, hcapacity, hcopied, hcopies,
    hhistory, hledger⟩, fun d record hfind hkeep => ?_⟩
  · rw [hpolicy, hcomplete.policy_eq, policyIn_compactedRecords]
  · rw [hledger, markAllRequiringRevalidation, holds_setFlags]
    exact (hheld d).1
  · rw [hledger, markAllRequiringRevalidation, held_setFlags]
    simpa [Function.comp_def] using (hheld d).2.map fun e => { e with requiresRevalidation := true }
  · obtain ⟨restored, hrestored, hcopy⟩ := hcopies d record hfind
    refine ⟨restored, ?_, hcopy⟩
    rw [hhistory]
    rcases hkeep with hholds | hfits
    · have hret := DecisionHistory.trimHistory_retires state.history ledger
      rw [hret.find_of_holds d ((hheld d).1.trans hholds), hrestored]
    · rw [decisionsIn_compactedRecords] at hsize
      rw [DecisionHistory.trimHistory_eq_self _ ledger, hrestored]
      rw [hcapacity]
      exact hsize.trans (hidx.length_inAuditOrder_le.trans hfits)

section Examples

open SmallFabric

/-- An engine with a history for one record that has released the first of two grants. -/
def overfullCore : EngineCore :=
  (boot { epoch := 0, historyCapacity := 1 } {}).2.performAll
    (announce [known 1 1 100] ++ [.admitRequest (request 1 ⟨20, 20, 20⟩ [1]) {},
      .admitRequest (request 2 ⟨30, 30, 30⟩ [1]) {}, .revoke 1 .operatorRequest {}])

theorem reachable_overfullCore :
    TransitionSystem.Reachable Starting after (fun _ _ => True) overfullCore := by
  have hstart : TransitionSystem.Reachable Starting after (fun _ _ => True)
      (boot { epoch := 0, historyCapacity := 1 } {}).2 := .init (Or.inr ⟨_, {}, [], rfl⟩)
  exact hstart.run (by decide +kernel)

/-- The journal after a compaction. -/
def compactedJournal : Journal := overfullCore.compactLocked.2.journal.getD {}

theorem records_compactedJournal : compactedJournal.records = overfullCore.compactedRecords := by
  decide +kernel

/-- With room for two records everything is restored. -/
theorem recovers_overfullCore :
    (boot { epoch := 0 } compactedJournal).1.status = none ∧
      overfullCore.Recovers Limits.maxDecisionRecords (boot { epoch := 0 } compactedJournal).2 := by
  have hstatus : (boot { epoch := 0 } compactedJournal).1.status = none := by decide +kernel
  exact ⟨hstatus, recovers_compacted reachable_overfullCore records_compactedJournal hstatus⟩

/-- Under the same configuration the record of the revoked grant is retired by the recovery. -/
theorem retired_by_recovery :
    TransitionSystem.Reachable Starting after (fun _ _ => True) overfullCore ∧
      compactedJournal.records = overfullCore.compactedRecords ∧
      (boot overfullCore.config compactedJournal).1.status = none ∧
      (overfullCore.history.find 1).map (fun record => (record.outcome, record.state)) =
        some (.admitted, .revoked) ∧
      (boot overfullCore.config compactedJournal).2.history.find 1 = none :=
  ⟨reachable_overfullCore, records_compactedJournal, by decide +kernel, by decide +kernel,
    by decide +kernel⟩

end Examples

end EngineCore

end AdmissionFabric
