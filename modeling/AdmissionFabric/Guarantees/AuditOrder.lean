import AdmissionFabric.Engine.JournalOrder

/-!
# The audit order is complete

Enforcement and compaction iterate over the audit order of the history, so a decision that holds
load and is missing from it is never released and never survives a compaction.

In memory the audit counter is the sequence that is assigned next. A recovery takes the maximum
over the sequences of decisions, which were assigned, and those of revocations and audit marks,
which were next. When the newest of these is of a decision, the first decision after the restart
gets the same audit sequence, and its entry in the audit index replaces that of the other.
-/

namespace AdmissionFabric

namespace EngineCore

open TransitionSystem

variable {core : EngineCore}

/-- Records have different audit sequences, and what holds load is listed exactly once. -/
structure AuditComplete (core : EngineCore) : Prop where
  distinct : ∀ d d' record record', core.history.find d = some record →
    core.history.find d' = some record' → record.audit = record'.audit → d = d'
  listed : ∀ d, core.ledger.holds d = true →
    (core.history.inAuditOrder.map (·.decision)).count d = 1

theorem Consistent.auditComplete (h : core.Consistent) :
    core.AuditComplete where
  distinct _ _ _ _ hfind hfind' haudit := h.indexed.audit_injective hfind hfind' haudit
  listed d hd := by
    obtain ⟨record, hfind, -⟩ := h.admitting d hd
    exact h.indexed.count_inAuditOrder hfind

/-- A restart succeeds, and a revocation or an audit mark that survives states a next audit sequence
ahead of every surviving decision. -/
def AuditAhead (core : EngineCore) : Event → Prop
  | .call _ => True
  | .restart config surviving disk =>
    (core.restart config surviving disk).1.status = none ∧
      ∀ journal ∈ core.journal, ∀ record ∈ decisionsIn (journal.cut surviving).records,
        ∃ audit ∈ (journal.cut surviving).records.filterMap ReplayState.nextAudit?,
          record.audit < audit

theorem sound_fresh (config : EngineConfig) : (EngineCore.fresh config).Sound :=
  ⟨.fresh config, .nil, fun _ h => (List.not_mem_nil h).elim, fun _ h => (List.not_mem_nil h).elim⟩

theorem Starting.sound (h : core.Starting) : core.Sound := by
  rcases h with ⟨config, rfl⟩ | ⟨config, options, disk, rfl⟩
  · exact sound_fresh config
  · refine ⟨(Consistent.boot_new config options disk).1, ?_⟩
    have hempty : ∀ records : List JournalRecord, records = [] ∨
        (∃ record, records = [.bootEpoch record]) → decisionsIn records = [] ∧
          ∀ prepare, .admissionPrepare prepare ∉ records := by
      rintro records (rfl | ⟨record, rfl⟩)
      · exact ⟨rfl, fun _ => List.not_mem_nil⟩
      · exact ⟨rfl, by simp⟩
    obtain ⟨hdecisions, hprepares⟩ := hempty _ (records_boot_cases config { options, disk })
    exact ⟨hdecisions ▸ .nil, fun _ h => (List.not_mem_nil (hdecisions ▸ h)).elim,
      fun prepare h => absurd h (hprepares prepare)⟩

theorem Sound.follow (h : core.Sound) {event : Event} (hguard : core.AuditAhead event) :
    (core.follow event).Sound := by
  cases event with
  | call call => exact (h.onDisk call.disk).perform call.operation
  | restart config surviving disk =>
    obtain ⟨hstatus, hahead⟩ := hguard
    rw [EngineCore.follow]
    cases hjournal : core.journal with
    | none =>
      rw [restart, hjournal]
      exact sound_fresh config
    | some journal =>
      have hrestart : core.restart config surviving disk =
          boot config { journal.cut surviving with disk } := by
        rw [restart, hjournal]
      have hrecords : core.records = journal.records := by
        rw [records, hjournal]
        rfl
      -- what survives is a prefix of a journal in order
      have hkept : (journal.cut surviving).records <+: core.records :=
        hrecords ▸ journal.records_cut_isPrefix surviving
      have hdecisions := hkept.sublist.filterMap JournalRecord.decision?
      rw [hrestart] at hstatus ⊢
      exact sound_boot hstatus (h.ordered.apart.sublist hdecisions)
        (fun record hrecord => (h.ordered.behind record (hdecisions.subset hrecord)).1)
        (fun prepare hprepare => h.ordered.intents prepare (hkept.subset hprepare))
        (hahead journal hjournal)

/-- In every run in which each restart finds a revocation or an audit mark behind the decisions it
finds, the audit order is complete in every state. -/
theorem auditComplete_of_reachable {core : EngineCore}
    (h : Reachable Starting EngineCore.follow AuditAhead core) : core.AuditComplete := by
  have hsound : core.Sound :=
    h.invariant (fun _ => Starting.sound) fun _ _ hcore hguard => hcore.follow hguard
  exact hsound.consistent.auditComplete

section Examples

open SmallFabric

instance (core : EngineCore) (event : Event) : Decidable (core.AuditAhead event) := by
  unfold AuditAhead
  split <;> infer_instance

/-- Announce one resource and admit twenty units. -/
def announcedRun : List Event :=
  Event.calls (announce [known 1 1 100] ++
    [.admitRequest (request 1 ⟨1, 20, 20⟩ [1]) {}])

/-- The authority of the epoch that the restart resumes with, and a second admission. -/
def resumedRun : List Event :=
  [.restart { epoch := 0 } 1000 []] ++ Event.calls
    [.admitRequest (request 2 ⟨1, 20, 20⟩ [1]) {}]

/-- A new engine over a new journal. -/
def auditedCore : EngineCore := (boot { epoch := 0 } {}).2

/-- A compaction ends with an audit mark. -/
theorem auditComplete_marked :
    (run EngineCore.follow auditedCore
      (announcedRun ++ Event.calls [.compactJournal] ++ resumedRun)).AuditComplete := by
  have hallowed : Allowed EngineCore.follow AuditAhead auditedCore
      (announcedRun ++ Event.calls [.compactJournal] ++ resumedRun) := by
    decide +kernel
  have hstart : Reachable Starting EngineCore.follow AuditAhead auditedCore :=
    .init (Or.inr ⟨{ epoch := 0 }, {}, [], rfl⟩)
  exact auditComplete_of_reachable (hstart.run hallowed)

/-- Without it the first decision after the restart replaces the held one in the audit order. -/
theorem not_auditComplete_unmarked :
    ¬ (run EngineCore.follow auditedCore (announcedRun ++ resumedRun)).AuditComplete := by
  intro h
  have hheld : (run EngineCore.follow auditedCore (announcedRun ++ resumedRun)).ledger.holds 1 =
      true := by
    decide +kernel
  have hmissing : ((run EngineCore.follow auditedCore
      (announcedRun ++ resumedRun)).history.inAuditOrder.map (·.decision)).count 1 = 0 := by
    decide +kernel
  rw [h.listed 1 hheld] at hmissing
  exact absurd hmissing (by decide)

end Examples

end EngineCore

end AdmissionFabric
