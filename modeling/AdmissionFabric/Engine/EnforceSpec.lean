import AdmissionFabric.Durable.RecordCodec
import AdmissionFabric.Engine.Consistency

/-!
# What an enforcement pass establishes

A pass that ends without a failed release leaves only grants that fit: a grant is kept because
its entries fitted when the pass met it, and the releases behind it only lower the load. A pass
fails only at a release that fails, so it succeeds when every grant that does not fit at its
start can be released.
-/

namespace AdmissionFabric

namespace Authority

variable {authority : Authority} {ledger ledger' : AdmittedLoadLedger} {entry : LedgerEntry}

/-- Whether the load on the resource of an entry is within what the resource may carry. -/
def Fits (authority : Authority) (ledger : AdmittedLoadLedger) (entry : LedgerEntry) : Prop :=
  ∃ cap ∈ authority.knownCapacity entry.resource,
    ledger.admitted entry.resource ≤ authority.allowance cap entry.resource

theorem checkEntry_eq_ok_iff {unknownDetail exceedsDetail : String} :
    authority.checkEntry ledger unknownDetail exceedsDetail entry = .ok () ↔
      authority.Fits ledger entry := by
  unfold checkEntry Fits
  cases authority.knownCapacity entry.resource with
  | none | some cap => simp

theorem Fits.mono (h : authority.Fits ledger entry)
    (hle : ledger'.admitted entry.resource ≤ ledger.admitted entry.resource) :
    authority.Fits ledger' entry := by
  obtain ⟨cap, hcap, hfit⟩ := h
  exact ⟨cap, hcap, UInt64.le_trans hle hfit⟩

end Authority

namespace AdmittedLoadLedger

/-- A ledger that holds some of the decisions of another, and no more load. -/
structure Lighter (ledger' ledger : AdmittedLoadLedger) : Prop where
  held : ∀ (d : AdmissionDecisionId) (es : List LedgerEntry),
    ledger'.byDecision[d]? = some es → ledger.byDecision[d]? = some es
  admitted_le : ∀ r, ledger'.admitted r ≤ ledger.admitted r

namespace Lighter

variable {ledger ledger' ledger'' : AdmittedLoadLedger}

theorem refl (ledger : AdmittedLoadLedger) : ledger.Lighter ledger :=
  ⟨fun _ _ => id, fun _ => UInt64.le_refl _⟩

theorem trans (h : ledger''.Lighter ledger') (h' : ledger'.Lighter ledger) :
    ledger''.Lighter ledger :=
  ⟨fun d es hd => h'.held d es (h.held d es hd),
    fun r => UInt64.le_trans (h.admitted_le r) (h'.admitted_le r)⟩

theorem holds (h : ledger'.Lighter ledger) (d : AdmissionDecisionId)
    (hd : ledger'.holds d = true) : ledger.holds d = true := by
  obtain ⟨es, hes⟩ := holds_eq_true_iff.mp hd
  exact holds_eq_true_iff.mpr ⟨es, h.held d es hes⟩

theorem mem_heldEntries (h : ledger'.Lighter ledger) {e : LedgerEntry}
    (he : e ∈ ledger'.heldEntries) : e ∈ ledger.heldEntries := by
  obtain ⟨d, es, hd, hmem⟩ := AdmittedLoadLedger.mem_heldEntries.mp he
  exact AdmittedLoadLedger.mem_heldEntries.mpr ⟨d, es, h.held d es hd, hmem⟩

theorem without (hwf : ledger.WellFormed) {d : AdmissionDecisionId} {es : List LedgerEntry}
    (hd : ledger.byDecision[d]? = some es) : (ledger.without d es).Lighter ledger := by
  refine ⟨fun d' es' hd' => ?_, hwf.admitted_without_le hd⟩
  rw [getElem?_byDecision_without] at hd'
  split at hd'
  · simp at hd'
  · exact hd'

end Lighter

end AdmittedLoadLedger

namespace EngineCore

variable {held : List LedgerEntry} {core core' initial : EngineCore} {d : AdmissionDecisionId}
    {reason : RevocationReason} {explanation explanation' : Explanation}

theorem checkFits_eq_ok_iff :
    core.checkFits held = .ok () ↔ ∀ e ∈ held, core.Fits core.ledger e := by
  simp only [checkFits, forM_eq_ok_iff, Authority.checkEntry_eq_ok_iff]

/-! ### Writes that succeed -/

/-- The journal takes a record: there is none, or its disk does not fail and it is in bounds. -/
def JournalTakes (journal : Option Journal) (ready : Bool) (record : JournalRecord) : Prop :=
  ∀ j ∈ journal, ready = true → j.disk = [] ∧ j.Accepts record

namespace JournalTakes

variable {journal journal' : Option Journal} {ready : Bool} {record record' : JournalRecord}

theorem of_length_le (h : JournalTakes journal ready record)
    (hle : record'.payload.length ≤ record.payload.length) :
    JournalTakes journal ready record' := by
  intro j hj hready
  obtain ⟨hdisk, hopen, hlen⟩ := h j hj hready
  exact ⟨hdisk, hopen, hle.trans hlen⟩

theorem write (h : JournalTakes journal ready record) :
    ∃ journal', writeJournal journal ready record = (.ok (), journal') := by
  cases journal with
  | none => exact ⟨none, rfl⟩
  | some j =>
    cases ready with
    | false => exact ⟨some j, rfl⟩
    | true =>
      obtain ⟨hdisk, haccepts⟩ := h j rfl rfl
      exact ⟨some (j.append record).2, by
        simp only [writeJournal, ↓reduceIte, Journal.append_of_disk_nil hdisk haccepts]⟩

theorem of_write {result : Except Status Unit} (h : JournalTakes journal ready record')
    (hwrite : writeJournal journal ready record = (result, journal')) :
    JournalTakes journal' ready record' := by
  cases journal with
  | none =>
    obtain ⟨-, rfl⟩ := Prod.mk.inj hwrite
    exact h
  | some j =>
    cases ready with
    | false =>
      obtain ⟨-, rfl⟩ := Prod.mk.inj hwrite
      exact h
    | true =>
      obtain ⟨hdisk, hopen, hlen⟩ := h j rfl rfl
      obtain ⟨-, rfl⟩ := Prod.mk.inj hwrite
      rintro j' hj' -
      obtain rfl := Option.some.inj hj'
      by_cases hrecord : record.payload.length ≤ j.options.maxPayload
      · rw [Journal.append_of_disk_nil hdisk ⟨hopen, hrecord⟩]
        exact ⟨hdisk, hopen, hlen⟩
      · simp only [Journal.append, hopen, Bool.not_true, Bool.false_eq_true, ↓reduceIte,
          Nat.not_le.mp hrecord]
        exact ⟨hdisk, hopen, hlen⟩

end JournalTakes

/-! ### Releases that succeed -/

theorem releaseDecisionLocked_eq_ok
    (h : core.releaseDecisionLocked d reason .revoked explanation = (.ok explanation', core')) :
    ∃ es journal, core.ledger.byDecision[d]? = some es ∧
      (∀ record, JournalTakes core.journal core.journalReady record →
        JournalTakes journal core.journalReady record) ∧
      core' = settleRelease { core with journal, ledger := core.ledger.without d es } d reason
        .revoked := by
  cases releaseDecisionLocked_effect h with
  | released _ hwrite hrelease hmark =>
    obtain ⟨-, hd, -, rfl⟩ := AdmittedLoadLedger.release_eq_ok_iff.mp hrelease
    exact ⟨_, _, hd, fun record htakes => (htakes.of_write hwrite).of_write hmark, rfl⟩

/-- The release of a decision cannot fail: its amounts are positive and its frame is taken. -/
def Releasable (core : EngineCore) (d : AdmissionDecisionId) (reason : RevocationReason) : Prop :=
  (∀ e ∈ core.ledger.entriesOf d, e.amount ≠ 0) ∧
    JournalTakes core.journal core.journalReady (.ledgerRelease (core.releaseOf d reason))

theorem length_payload_revocation_le (record : RevocationRecord) (release : ReleaseRecord)
    (hne : release.released ≠ []) :
    (JournalRecord.revocation record).payload.length ≤
      (JournalRecord.ledgerRelease release).payload.length := by
  change record.encode.length ≤ release.encode.length
  rw [length_encode_revocation, length_encode_release]
  have := List.length_pos_of_ne_nil hne
  omega

theorem releaseDecisionLocked_isOk (hwf : core.ledger.WellFormed) (hne : d ≠ 0)
    (hheld : core.ledger.holds d = true) (hreleasable : core.Releasable d reason)
    (explanation : Explanation) :
    ∃ explanation' core',
      core.releaseDecisionLocked d reason .revoked explanation = (.ok explanation', core') := by
  obtain ⟨es, hd⟩ := AdmittedLoadLedger.holds_eq_true_iff.mp hheld
  have hperm := AdmittedLoadLedger.Labelled.filter_entries_perm hwf.decision_eq hd
  have hrelease := hwf.release_of_pos hne hd fun e he =>
    hreleasable.1 e (hperm.mem_iff.mpr he)
  obtain ⟨journal, hwrite⟩ := hreleasable.2.write
  have hentries : (core.releaseOf d reason).released ≠ [] := fun hnil =>
    hwf.ne_nil d es hd (List.perm_nil.mp (hnil ▸ hperm.symm))
  have hmark := (hreleasable.2.of_write hwrite).of_length_le
    (length_payload_revocation_le (core.revocationOf d reason .revoked) _ hentries)
  obtain ⟨journal', hwrite'⟩ := hmark.write
  generalize hcall : core.releaseDecisionLocked d reason .revoked explanation = outcome
  cases releaseDecisionLocked_effect hcall with
  | unheld hnot => simp [hheld] at hnot
  | unwritten _ hfail => simp [hwrite] at hfail
  | stuck _ _ hstuck => simp [hrelease] at hstuck
  | unmarked _ hok _ hfail =>
    rw [hwrite, Prod.mk.injEq] at hok
    rw [← hok.2, hwrite'] at hfail
    simp at hfail
  | released _ _ _ _ => exact ⟨_, _, rfl⟩

/-! ### The pass -/

/-- One step passes over a record, or releases a grant that does not fit. -/
theorem enforceRecord_eq_ok {held : AdmissionDecisionId → List LedgerEntry}
    {report report' : ReconciliationReport} {record : DecisionRecord}
    (hstep : enforceRecord held reason report record core = (.ok report', core')) :
    (report' = report ∧ core' = core ∧ (record.outcome.isAdmitting = true →
        record.decision ∉ report.revokedDecisions →
        ∀ e ∈ held record.decision, core.Fits core.ledger e)) ∨
      (record.decision ∉ report.revokedDecisions ∧
        (∃ e ∈ held record.decision, ¬ core.Fits core.ledger e) ∧
        ∃ note explanation explanation',
          report' = reportRevoked report record.decision (held record.decision) note ∧
          core.releaseDecisionLocked record.decision reason .revoked explanation =
            (.ok explanation', core')) := by
  unfold enforceRecord at hstep
  split at hstep
  · rename_i hskip
    obtain ⟨hreport, rfl⟩ := Prod.mk.inj hstep
    refine Or.inl ⟨(Except.ok.inj hreport).symm, rfl, fun hadmitting hnot e he => ?_⟩
    -- nothing is asked of a decision that is skipped
    rcases hskip with hskip | hskip | hskip
    · simp [hadmitting] at hskip
    · simp [hskip] at he
    · exact absurd hskip hnot
  · rename_i hmeets
    simp only [not_or] at hmeets
    split at hstep
    · rename_i hfits
      obtain ⟨hreport, rfl⟩ := Prod.mk.inj hstep
      exact Or.inl ⟨(Except.ok.inj hreport).symm, rfl, fun _ _ => checkFits_eq_ok_iff.mp hfits⟩
    · rename_i note hunfit
      have hover : ∃ e ∈ held record.decision, ¬ core.Fits core.ledger e := by
        by_contra hnone
        push Not at hnone
        simp [checkFits_eq_ok_iff.mpr hnone] at hunfit
      simp only at hstep
      generalize hrelease : core.releaseDecisionLocked record.decision reason .revoked _ =
        outcome at hstep
      obtain ⟨status | explanation, released⟩ := outcome
      · simp at hstep
      · obtain ⟨hreport, rfl⟩ := Prod.mk.inj hstep
        exact Or.inr ⟨hmeets.2.2, hover, _, _, _, (Except.ok.inj hreport).symm, hrelease⟩

/-- Since a pass began, the revoked decisions have been released and nothing else happened. -/
structure Enforced (initial core : EngineCore) (report : ReconciliationReport) : Prop where
  authority : core.toAuthority = initial.toAuthority
  wellFormed : core.ledger.WellFormed
  held : ∀ d : AdmissionDecisionId, core.ledger.byDecision[d]? =
    if d ∈ report.revokedDecisions then none else initial.ledger.byDecision[d]?
  lighter : core.ledger.Lighter initial.ledger
  ready : core.journalReady = initial.journalReady
  takes : ∀ record, JournalTakes initial.journal initial.journalReady record →
    JournalTakes core.journal core.journalReady record

namespace Enforced

variable {report report' : ReconciliationReport}

theorem refl (hwf : initial.ledger.WellFormed) (report : ReconciliationReport)
    (hreport : report.revokedDecisions = []) : Enforced initial initial report where
  authority := rfl
  wellFormed := hwf
  held d := by simp [hreport]
  lighter := .refl _
  ready := rfl
  takes _ := id

theorem release (h : Enforced initial core report) {note : BindingConstraint}
    (hrelease : core.releaseDecisionLocked d reason .revoked explanation =
      (.ok explanation', core')) :
    Enforced initial core' (reportRevoked report d held note) ∧
      core'.ledger.Lighter core.ledger ∧ core'.ledger.holds d = false := by
  obtain ⟨es, journal, hd, htakes, rfl⟩ := releaseDecisionLocked_eq_ok hrelease
  have hby : ∀ d' : AdmissionDecisionId, (core.ledger.without d es).byDecision[d']? =
      if d = d' then none else core.ledger.byDecision[d']? :=
    fun d' => AdmittedLoadLedger.getElem?_byDecision_without d'
  have hlighter := AdmittedLoadLedger.Lighter.without h.wellFormed hd
  refine ⟨⟨h.authority, h.wellFormed.without hd, fun d' => ?_, hlighter.trans h.lighter, h.ready,
    fun record hrecord => htakes record (h.takes record hrecord)⟩, hlighter, ?_⟩
  · change (core.ledger.without d es).byDecision[d']? = _
    rw [hby, h.held d']
    by_cases hd' : d = d'
    · simp [hd', reportRevoked]
    · simp [hd', Ne.symm hd', reportRevoked]
  · change (core.ledger.without d es).holds d = false
    rw [AdmittedLoadLedger.holds, hby, if_pos rfl]
    rfl

theorem not_mem_revoked (h : Enforced initial core report) (hd : core.ledger.holds d = true) :
    d ∉ report.revokedDecisions := by
  intro hmem
  rw [AdmittedLoadLedger.holds, h.held, if_pos hmem] at hd
  simp at hd

theorem enforceRecord (h : Enforced initial core report) {record : DecisionRecord}
    (hstep : EngineCore.enforceRecord initial.ledger.entriesOf reason report record core =
      (.ok report', core')) :
    Enforced initial core' report' ∧ core'.ledger.Lighter core.ledger ∧
      (record.outcome.isAdmitting = true → core'.ledger.holds record.decision = true →
        ∀ e ∈ initial.ledger.entriesOf record.decision, initial.Fits core'.ledger e) := by
  obtain ⟨rfl, rfl, hfits⟩ | ⟨-, -, note, explanation, explanation', rfl, hrelease⟩ :=
    enforceRecord_eq_ok hstep
  · refine ⟨h, .refl _, fun hadmitting hheld => ?_⟩
    rw [← h.authority]
    exact hfits hadmitting (h.not_mem_revoked hheld)
  · obtain ⟨hnext, hlighter, hgone⟩ := h.release hrelease
    exact ⟨hnext, hlighter, fun _ hheld => by simp [hgone] at hheld⟩

theorem enforceRecords (h : Enforced initial core report) {records : List DecisionRecord}
    (hpass : EngineCore.enforceRecords initial.ledger.entriesOf reason report records core =
      (.ok report', core')) :
    Enforced initial core' report' ∧ core'.ledger.Lighter core.ledger ∧
      ∀ record ∈ records, record.outcome.isAdmitting = true →
        core'.ledger.holds record.decision = true →
        ∀ e ∈ initial.ledger.entriesOf record.decision, initial.Fits core'.ledger e := by
  induction records generalizing core report with
  | nil =>
    obtain ⟨hreport, rfl⟩ := Prod.mk.inj hpass
    obtain rfl := Except.ok.inj hreport
    exact ⟨h, .refl _, by simp⟩
  | cons record rest ih =>
    rw [EngineCore.enforceRecords] at hpass
    rcases hstep : EngineCore.enforceRecord initial.ledger.entriesOf reason report record core with
      ⟨status | report₁, core₁⟩
    · rw [hstep] at hpass
      simp at hpass
    · rw [hstep, Outcome.andThen_ok] at hpass
      obtain ⟨hnext, hlighter, hfits⟩ := h.enforceRecord hstep
      obtain ⟨hlast, hlighter', hfits'⟩ := ih hnext hpass
      refine ⟨hlast, hlighter'.trans hlighter, fun record' hmem hadmitting hheld e he => ?_⟩
      rcases List.mem_cons.mp hmem with rfl | hmem
      · -- what fitted when the pass met it still fits: the load only went down
        exact (hfits hadmitting (hlighter'.holds _ hheld) e he).mono (hlighter'.admitted_le _)
      · exact hfits' record' hmem hadmitting hheld e he

theorem releasable (h : Enforced initial core report) (hwf : initial.ledger.WellFormed)
    (hheld : core.ledger.holds d = true) (hreleasable : initial.Releasable d reason) :
    core.Releasable d reason := by
  obtain ⟨es, hd⟩ := AdmittedLoadLedger.holds_eq_true_iff.mp hheld
  have hd₀ : initial.ledger.byDecision[d]? = some es := by
    rw [← hd, h.held, if_neg (h.not_mem_revoked hheld)]
  have hperm := AdmittedLoadLedger.Labelled.filter_entries_perm h.wellFormed.decision_eq hd
  have hperm₀ := AdmittedLoadLedger.Labelled.filter_entries_perm hwf.decision_eq hd₀
  refine ⟨fun e he => hreleasable.1 e (hperm₀.mem_iff.mpr (hperm.mem_iff.mp he)), ?_⟩
  refine (h.takes _ hreleasable.2).of_length_le ?_
  change (core.releaseOf d reason).encode.length ≤ (initial.releaseOf d reason).encode.length
  have hlength : (core.releaseOf d reason).released.length =
      (initial.releaseOf d reason).released.length := hperm.length_eq.trans hperm₀.length_eq.symm
  rw [length_encode_release, length_encode_release, hlength]

theorem enforceRecord_isOk (h : Enforced initial core report) (hconsistent : initial.Consistent)
    (hall : ∀ d, initial.ledger.holds d = true →
      initial.checkFits (initial.ledger.entriesOf d) = .ok () ∨ initial.Releasable d reason)
    (record : DecisionRecord) :
    ∃ report' core', EngineCore.enforceRecord initial.ledger.entriesOf reason report record
      core = (.ok report', core') := by
  unfold EngineCore.enforceRecord
  split
  · exact ⟨_, _, rfl⟩
  · rename_i hmeets
    simp only [not_or] at hmeets
    obtain ⟨-, hentries, hrevoked⟩ := hmeets
    obtain ⟨e, he⟩ := List.exists_mem_of_ne_nil _ hentries
    obtain ⟨es, hd, -⟩ := hconsistent.wellFormed.mem_filter_entries.mp he
    have hheld : core.ledger.holds record.decision = true := by
      rw [AdmittedLoadLedger.holds, h.held, if_neg hrevoked, hd]
      rfl
    split
    · exact ⟨_, _, rfl⟩
    · rename_i hnot
      have hunfit : initial.checkFits (initial.ledger.entriesOf record.decision) ≠ .ok () := by
        intro hfits
        have hstill : core.checkFits (initial.ledger.entriesOf record.decision) = .ok () := by
          rw [checkFits_eq_ok_iff, h.authority]
          intro e he
          exact (checkFits_eq_ok_iff.mp hfits e he).mono (h.lighter.admitted_le _)
        simp [hstill] at hnot
      have hbefore := h.lighter.holds _ hheld
      have hreleasable := h.releasable hconsistent.wellFormed hheld
        ((hall record.decision hbefore).resolve_left hunfit)
      obtain ⟨found, hfind, -⟩ := hconsistent.admitting _ hbefore
      have hne : record.decision ≠ 0 := (hconsistent.indexed.listed _ found hfind).2.1
      simp only
      generalize (core.configureExplanation {}).add _ = explanation
      obtain ⟨explanation', released, hrelease⟩ :=
        releaseDecisionLocked_isOk h.wellFormed hne hheld hreleasable explanation
      rw [hrelease]
      exact ⟨_, _, rfl⟩

theorem enforceRecords_isOk (h : Enforced initial core report) (hconsistent : initial.Consistent)
    (hall : ∀ d, initial.ledger.holds d = true →
      initial.checkFits (initial.ledger.entriesOf d) = .ok () ∨ initial.Releasable d reason)
    (records : List DecisionRecord) :
    ∃ report' core', EngineCore.enforceRecords initial.ledger.entriesOf reason report records
      core = (.ok report', core') := by
  induction records generalizing core report with
  | nil => exact ⟨_, _, rfl⟩
  | cons record rest ih =>
    obtain ⟨report₁, core₁, hstep⟩ := h.enforceRecord_isOk hconsistent hall record
    obtain ⟨report', core', hrest⟩ := ih (h.enforceRecord hstep).1
    exact ⟨report', core', by rw [EngineCore.enforceRecords, hstep, Outcome.andThen_ok, hrest]⟩

end Enforced

/-! ### The engine after a pass -/

/-- Every held entry fits what its resource may carry. -/
def AllFit (core : EngineCore) : Prop :=
  ∀ e ∈ core.ledger.heldEntries, core.Fits core.ledger e

theorem AllFit.clearFlags (h : core.AllFit) :
    ({ core with ledger := core.ledger.clearRevalidationFlags } : EngineCore).AllFit := by
  intro e he
  change e ∈ (core.ledger.setFlags false).heldEntries at he
  rw [AdmittedLoadLedger.heldEntries_setFlags] at he
  obtain ⟨e', he', rfl⟩ := List.mem_map.mp he
  exact h e' he'

theorem Consistent.exists_mem_inAuditOrder (h : core.Consistent)
    (hheld : core.ledger.holds d = true) : ∃ record ∈ core.history.inAuditOrder,
      record.decision = d ∧ record.outcome.isAdmitting = true := by
  obtain ⟨record, hfind, hadmitting⟩ := h.admitting d hheld
  obtain ⟨rfl, -⟩ := h.indexed.listed d record hfind
  exact ⟨record, h.indexed.mem_inAuditOrder_iff.mpr hfind, rfl, hadmitting⟩

theorem allFit_of_enforceRecords (hwf : core.ledger.WellFormed)
    (hlisted : ∀ d, core.ledger.holds d = true → ∃ record ∈ core.history.inAuditOrder,
      record.decision = d ∧ record.outcome.isAdmitting = true)
    {report report' : ReconciliationReport} (hreport : report.revokedDecisions = [])
    (hpass : enforceRecords core.ledger.entriesOf reason report core.history.inAuditOrder.reverse
      core = (.ok report', core')) : core'.AllFit := by
  obtain ⟨hlast, -, hfits⟩ := (Enforced.refl hwf report hreport).enforceRecords hpass
  intro e he
  obtain ⟨es, hd, hmem⟩ := hlast.wellFormed.holds_decision he
  have hheld : core'.ledger.holds e.decision = true :=
    AdmittedLoadLedger.holds_eq_true_iff.mpr ⟨es, hd⟩
  -- the record of the decision is one of those the pass walks over
  obtain ⟨record, hrecord, hdecision, hadmitting⟩ := hlisted _ (hlast.lighter.holds _ hheld)
  rw [hlast.held, if_neg (hlast.not_mem_revoked hheld)] at hd
  rw [Authority.Fits, hlast.authority]
  exact hfits record (List.mem_reverse.mpr hrecord) hadmitting (hdecision ▸ hheld) e
    (hwf.mem_filter_entries.mpr ⟨es, hdecision ▸ hd, hmem⟩)

theorem allFit_enforceAccountingLocked (h : core.Consistent) {trigger : EnforcementTrigger}
    (hcapacity : core.capacity ≠ none)
    (hall : ∀ d, core.ledger.holds d = true →
      core.checkFits (core.ledger.entriesOf d) = .ok () ∨ core.Releasable d trigger.reason) :
    (core.enforceAccountingLocked trigger).2.AllFit := by
  unfold enforceAccountingLocked
  split
  · contradiction
  · obtain ⟨report, core', hpass⟩ := (Enforced.refl h.wellFormed
      { performed := true, trigger } rfl).enforceRecords_isOk h hall
      core.history.inAuditOrder.reverse
    have hfit := allFit_of_enforceRecords h.wellFormed (fun _ => h.exists_mem_inAuditOrder) rfl
      hpass
    rw [hpass, Outcome.andThen_ok]
    unfold finishEnforcement
    split
    · exact hfit.clearFlags
    · exact hfit.clearFlags

end EngineCore

end AdmissionFabric
