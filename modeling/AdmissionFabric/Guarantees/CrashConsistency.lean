import AdmissionFabric.Engine.CommittedLoad
import AdmissionFabric.Guarantees.FailedReleases
import Mathlib.Logic.Relation

/-!
# Crash consistency of the admitted load

Every operation is a chain of transactions, and each of them changes the admitted load at most
once: a grant when its commit is written, a release when its release frame is. A crash leaves the
frames from before the transaction that is in progress, and perhaps some of its own. A recovery
from them restores the load from before the transaction or the load after it.

A release writes its frame before it asks the ledger, which may refuse. The load then stays in
memory, but no recovery restores it.
-/

namespace AdmissionFabric

namespace EngineCore

open SmallFabric AdmittedLoadLedger Journal
open TransitionSystem
open Relation (ReflTransGen)

variable {es : List LedgerEntry} {config : EngineConfig} {middle : EngineCore}
    {second first : JournalRecord} {ledger' : AdmittedLoadLedger} {d : AdmissionDecisionId}
    {added : List JournalRecord} {ledger : AdmittedLoadLedger} {claim : ClaimContext}
    {record : JournalRecord} {core core' : EngineCore}

/-- The number of bytes that the frames of the journal take. -/
def journalBytes (core : EngineCore) : Nat :=
  (core.journal.map fun journal => totalBytes journal.frames).getD 0

/-- The records whose frames are complete in the first `n` bytes of the journal. -/
def recordsWithin (core : EngineCore) (n : Nat) : List JournalRecord :=
  (core.journal.map fun journal => (journal.cut n).records).getD []

/-- The ledger has exactly the load that the records commit to, flagged for revalidation: the
entries of every intent that is followed by its commit, unless its decision has a release frame. -/
structure RestoresLoad (records : List JournalRecord) (ledger : AdmittedLoadLedger) : Prop where
  committed : ∀ record, .admissionCommit record ∈ records →
    ∃ prepare, Committed records prepare record
  held : ∀ (d : AdmissionDecisionId) es, ledger.byDecision[d]? = some es ↔
    ∃ prepare record, Committed records prepare record ∧ prepare.decision = d ∧
      d ∉ releasedIn records ∧
      es = prepare.entries.map fun e => { e with requiresRevalidation := true }

/-- The transactions that operations are made of. Except for grants and releases they leave the
admitted load alone. -/
inductive Transaction : EngineCore → EngineCore → Prop
  | refusal (core : EngineCore) (request : AdmissionRequest) (claim : ClaimContext)
      (reason : Refusal) (evidence : Option Evidence) (recordAttempt : Bool) :
      Transaction core (core.consumeIdentity.finishRefusal
        (core.refusal request claim reason evidence) request recordAttempt).2
  | grant (core : EngineCore) (request : AdmissionRequest) (claim : ClaimContext) (grant : Grant)
      (hverdict : core.verdict request claim = .grant grant) :
      Transaction core (core.consumeIdentity.finishAdmission
        (core.admission request claim grant) request (amountsOf grant)).2
  | release (core : EngineCore) (d : AdmissionDecisionId) (reason : RevocationReason)
      (explanation : Explanation) :
      Transaction core (core.releaseDecisionLocked d reason .revoked explanation).2
  | mark (core : EngineCore) (d : AdmissionDecisionId) (f : DecisionRecord → DecisionRecord) :
      Transaction core { core with history := core.history.modify d f }
  | note (core : EngineCore) (record : JournalRecord) (hnote : core.IsNote record) :
      Transaction core (core.writeRecord record).2
  | clearFlags (core : EngineCore) :
      Transaction core { core with ledger := core.ledger.clearRevalidationFlags }
  | steady (core core' : EngineCore) (hstores : core'.stores = core.stores) :
      Transaction core core'

/-- After a crash in the transaction between two states, a recovery that succeeds restores what the
surviving frames commit to, and this is the load from before the transaction or the load after it.
-/
def CrashSafe (before after : EngineCore) : Prop :=
  ∀ config n disk, before.journalBytes ≤ n → (after.restart config n disk).1.status = none →
    RestoresLoad (after.recordsWithin n) (after.restart config n disk).2.ledger ∧
      ((after.restart config n disk).2.ledger.byDecision =
          before.ledger.markAllRequiringRevalidation.byDecision ∨
        (after.restart config n disk).2.ledger.byDecision =
          after.ledger.markAllRequiringRevalidation.byDecision)

/-! ### Frames of one transaction -/

/-- The journal has the frames it had and those of more records. -/
def Appends (core core' : EngineCore) (added : List JournalRecord) : Prop :=
  ∃ journal journal' frames, core.journal = some journal ∧ core'.journal = some journal' ∧
    journal'.frames = journal.frames ++ frames ∧ frames.map JournalFrame.record = added

theorem Appends.records_eq (h : core.Appends core' added) :
    core'.records = core.records ++ added := by
  obtain ⟨journal, journal', frames, hjournal, hjournal', hframes, rfl⟩ := h
  rw [records, records, hjournal, hjournal']
  simp [Journal.records, hframes]

theorem Appends.recordsWithin_eq (h : core.Appends core' added) {n : Nat}
    (hn : core.journalBytes ≤ n) :
    ∃ left, left <+: added ∧ core'.recordsWithin n = core.records ++ left := by
  obtain ⟨journal, journal', frames, hjournal, hjournal', hframes, rfl⟩ := h
  rw [journalBytes, hjournal] at hn
  refine ⟨(completeFrames (n - totalBytes journal.frames) frames).map JournalFrame.record,
    (completeFrames_isPrefix _ _).map _, ?_⟩
  rw [recordsWithin, records, hjournal, hjournal']
  change (completeFrames n journal'.frames).map JournalFrame.record = _
  rw [hframes, completeFrames_append hn, List.map_append]
  rfl

theorem markAll_ledger_boot {journal : Journal} (hstatus : (boot config journal).1.status = none) :
    (boot config journal).2.ledger.markAllRequiringRevalidation =
      (boot config journal).2.ledger := by
  obtain ⟨opened, state, ledger, epoch, journal', -, -, -, -, -, heq⟩ :=
    boot_eq_recoveredCore hstatus
  rw [heq]
  exact ledger.setFlags_setFlags true true

/-- A transaction is safe if its frames commit to the old or the new load wherever they are cut. -/
theorem crashSafe_of_appends (happends : core.Appends core' added)
    (hordered : Chronological core'.records)
    (hmirrors : ∀ left, left <+: added → Mirrors core.ledger (core.records ++ left) ∨
      Mirrors core'.ledger (core.records ++ left)) : core.CrashSafe core' := by
  intro config n disk hn hstatus
  obtain ⟨left, hleft, hwithin⟩ := happends.recordsWithin_eq hn
  have hinitial : core'.recordsWithin n <+: core'.records := by
    rw [hwithin, happends.records_eq]
    exact (List.prefix_append_right_inj _).mpr hleft
  obtain ⟨_, journal, _, _, hjournal, _, _⟩ := happends
  have hrestart : core'.restart config n disk = boot config { journal.cut n with disk } := by
    rw [restart, hjournal]
  have hrecords : core'.recordsWithin n = ({ journal.cut n with disk } : Journal).records := by
    rw [recordsWithin, hjournal]
    rfl
  rw [hrestart] at hstatus ⊢
  have hleftordered := hordered.of_initial hinitial
  rw [hrecords] at hleftordered
  have hboot := mirrors_boot hstatus hleftordered
  refine ⟨⟨fun record hmem => ?_, fun d es => ?_⟩, ?_⟩
  · rw [hrecords] at hmem ⊢
    exact (hleftordered.committed_of_mem hmem).2
  · rw [getElem?_byDecision_boot hstatus hleftordered, hrecords]
    constructor
    · rintro ⟨_, ⟨prepare, record, hcommitted, hd, hfree, rfl⟩, rfl⟩
      exact ⟨prepare, record, hcommitted, hd, hfree, rfl⟩
    · rintro ⟨prepare, record, hcommitted, hd, hfree, rfl⟩
      exact ⟨_, ⟨prepare, record, hcommitted, hd, hfree, rfl⟩, rfl⟩
  · rw [← hrecords, hwithin] at hboot
    rw [← markAll_ledger_boot hstatus]
    exact (hmirrors left hleft).imp hboot.byDecision_eq hboot.byDecision_eq

/-! ### The journal behind the ledger -/

/-- The journal commits to the load in the ledger, and its identities are behind the counter. -/
structure Backed (core : EngineCore) : Prop where
  ordered : Chronological core.records
  mirrors : Mirrors core.ledger core.records
  decided : ∀ d ∈ decidedIn core.records, d < core.nextDecisionSequence
  next_pos : 0 < core.nextDecisionSequence
  wellFormed : core.ledger.WellFormed

theorem clear_byDecision_congr (h : ledger'.byDecision = ledger.byDecision) :
    ledger'.clearRevalidationFlags.byDecision = ledger.clearRevalidationFlags.byDecision := by
  simp only [clearRevalidationFlags, AdmittedLoadLedger.setFlags, h]

namespace Backed

theorem ne_zero (h : core.Backed) (hheld : core.ledger.holds d = true) : d ≠ 0 := by
  rintro rfl
  exact h.ordered.nodup_decidedIn.2 (h.mirrors.decided_of_holds hheld)

theorem new (h : core.Backed) : core.nextDecisionSequence ∉ decidedIn core.records :=
  fun hmem => Nat.lt_irrefl _ (h.decided _ hmem)

theorem mono (h : core.Backed) (hrecords : core'.records = core.records)
    (hnext : core.nextDecisionSequence ≤ core'.nextDecisionSequence)
    (hledger : core'.ledger.clearRevalidationFlags.byDecision =
      core.ledger.clearRevalidationFlags.byDecision)
    (hwf : core'.ledger.WellFormed) : core'.Backed where
  ordered := hrecords ▸ h.ordered
  mirrors := h.mirrors.congr hledger fun _ _ => by rw [hrecords]
  decided d hd := (h.decided d (hrecords ▸ hd)).trans_le hnext
  next_pos := h.next_pos.trans_le hnext
  wellFormed := hwf

theorem concat (h : core.Backed) (hrecords : core'.records = core.records ++ [record])
    (hfollows : MayFollow core.records record) (hreleased : record.released? = none)
    (hcommit : ∀ decision, record ≠ .admissionCommit decision)
    (hdecision : ∀ decision, record.decision? = some decision →
      decision.decision < core'.nextDecisionSequence)
    (hnext : core.nextDecisionSequence ≤ core'.nextDecisionSequence)
    (hledger : core'.ledger.clearRevalidationFlags.byDecision =
      core.ledger.clearRevalidationFlags.byDecision) (hwf : core'.ledger.WellFormed) :
    core'.Backed where
  ordered := hrecords ▸ h.ordered.concat hfollows
  mirrors := h.mirrors.congr hledger fun _ _ => by rw [hrecords, loaded_concat hreleased hcommit]
  decided d hd := by
    rw [hrecords, decidedIn_concat, List.mem_append, Option.mem_toList, Option.map_eq_some_iff]
      at hd
    rcases hd with hd | ⟨decision, hdecided, rfl⟩
    · exact (h.decided d hd).trans_le hnext
    · exact hdecision decision hdecided
  next_pos := h.next_pos.trans_le hnext
  wellFormed := hwf

theorem released (h : core.Backed) {release : ReleaseRecord} (hheld : core.ledger.holds d = true)
    (hrelease : core.ledger.release d = .ok (es, ledger)) (hd : release.decision = d)
    (hrecords : core'.records = core.records ++ [.ledgerRelease release])
    (hledger : core'.ledger = ledger)
    (hnext : core.nextDecisionSequence ≤ core'.nextDecisionSequence) : core'.Backed where
  ordered := by
    subst hd
    exact hrecords ▸ h.ordered.concat (h.mirrors.decided_of_holds hheld)
  mirrors d' es' := by
    obtain ⟨-, -, -, rfl⟩ := release_eq_ok_iff.mp hrelease
    rw [hrecords, loaded_concat_release, ← h.mirrors d' es', hledger, hd]
    simp only [clearRevalidationFlags,
      getElem?_byDecision_setFlags,
      getElem?_byDecision_without]
    by_cases hd' : d = d'
    · simp [hd']
    · simp [hd', Ne.symm hd']
  decided d' hd' := by
    rw [hrecords, decidedIn_concat, List.mem_append] at hd'
    rcases hd' with hd' | hd'
    · exact (h.decided d' hd').trans_le hnext
    · cases hd'
  next_pos := h.next_pos.trans_le hnext
  wellFormed := hledger ▸ h.wellFormed.release hrelease

theorem granted (h : core.Backed) {prepare : PrepareRecord} {record : DecisionRecord}
    (hprepare : [.admissionPrepare prepare] <:+ core.records)
    (hid : prepare.decision = core.nextDecisionSequence)
    (hdecision : prepare.decision = record.decision) (hforce : record.InForce)
    (hreserve : core.ledger.reserve prepare.decision prepare.demand prepare.epoch
      prepare.boundCapacityGeneration prepare.path prepare.amounts = (.ok (), ledger))
    (hrecords : core'.records = core.records ++ [.admissionCommit record])
    (hledger : core'.ledger = ledger)
    (hnext : core.nextDecisionSequence < core'.nextDecisionSequence) : core'.Backed where
  ordered := by
    refine hrecords ▸ h.ordered.concat ⟨?_, ?_, hforce, prepare, hdecision, hprepare⟩
    · rw [← hdecision, hid]
      exact Nat.ne_of_gt h.next_pos
    · rw [← hdecision, hid]
      exact h.new
  mirrors d es := by
    have hfree : prepare.decision ∉ releasedIn core.records := fun hmem =>
      h.new (hid ▸ h.ordered.decided_of_released hmem)
    obtain ⟨-, pathTotals, -, rfl⟩ := reserve_eq_ok_iff.mp hreserve
    rw [hrecords, loaded_concat_commit hprepare hdecision hfree, ← h.mirrors d es, hledger]
    simp only [clearRevalidationFlags,
      getElem?_byDecision_setFlags, withReservation,
      Std.ExtTreeMap.getElem?_insert, Std.compare_eq_iff_eq]
    by_cases hd : prepare.decision = d
    · -- the identity is new, so nothing was held under it
      subst hd
      have hunheld : core.ledger.byDecision[prepare.decision]? = none := by
        refine holds_eq_false_iff.mp (Bool.eq_false_iff.mpr fun hheld => ?_)
        rw [hid] at hheld
        exact h.new (h.mirrors.decided_of_holds hheld)
      rw [if_pos rfl, hunheld, Option.map_some, Option.map_none]
      change some (prepare.entries.map _) = some es ↔ _
      rw [map_entries_unflagged]
      simp
    · simp [hd]
  decided d hd := by
    rw [hrecords, decidedIn_concat, List.mem_append] at hd
    rcases hd with hd | hd
    · exact (h.decided d hd).trans hnext
    · have heq : d = record.decision := by simpa [JournalRecord.decision?] using hd
      rw [heq, ← hdecision, hid]
      exact hnext
  next_pos := h.next_pos.trans hnext
  wellFormed := by
    have hnodup := h.ordered.nodup_amounts (hprepare.subset (List.mem_singleton_self _))
    have hwf := h.wellFormed.reserve prepare.decision prepare.demand prepare.epoch
      prepare.boundCapacityGeneration prepare.path hnodup
    rw [hreserve] at hwf
    exact hledger ▸ hwf

theorem crashSafe (h : core.Backed) (h' : core'.Backed) (happends : core.Appends core' added)
    (hone : added.length ≤ 1) : core.CrashSafe core' := by
  refine crashSafe_of_appends happends h'.ordered fun left hleft => ?_
  rcases Nat.eq_zero_or_pos left.length with hempty | hpos
  · left
    rw [List.eq_nil_of_length_eq_zero hempty, List.append_nil]
    exact h.mirrors
  · right
    have hall : left = added := hleft.eq_of_length_le (hone.trans hpos)
    rw [hall, ← happends.records_eq]
    exact h'.mirrors

theorem crashSafe_of_middle (h : core.Backed) (hmiddle : middle.Backed) (h' : core'.Backed)
    (hfirst : core.Appends middle [first]) (happends : core.Appends core' [first, second])
    (hload : middle.ledger.byDecision = core.ledger.byDecision ∨
      middle.ledger.byDecision = core'.ledger.byDecision) : core.CrashSafe core' := by
  refine crashSafe_of_appends happends h'.ordered fun left hleft => ?_
  have hmirrors := hmiddle.mirrors
  rw [hfirst.records_eq] at hmirrors
  simp only [List.prefix_cons_iff, List.prefix_nil] at hleft
  obtain rfl | ⟨_, rfl, rfl | ⟨_, rfl, rfl⟩⟩ := hleft
  · rw [List.append_nil]
    exact Or.inl h.mirrors
  · have hsame : ∀ {ledger : AdmittedLoadLedger}, middle.ledger.byDecision = ledger.byDecision →
        Mirrors ledger (core.records ++ [first]) := fun hby =>
      hmirrors.congr (clear_byDecision_congr hby).symm fun _ _ => Iff.rfl
    exact hload.imp hsame hsame
  · rw [← happends.records_eq]
    exact Or.inr h'.mirrors

end Backed

/-! ### Transactions -/

theorem Appends.of_foldl {journal : Journal} (hjournal : core.journal = some journal)
    (hjournal' : core'.journal = some (added.foldl Journal.appended journal)) :
    core.Appends core' added := by
  have hframes : ∀ (added : List JournalRecord) (journal : Journal), ∃ frames,
      (added.foldl appended journal).frames = journal.frames ++ frames ∧
        frames.map JournalFrame.record = added := by
    intro added
    induction added with
    | nil => exact fun journal => ⟨[], (List.append_nil _).symm, rfl⟩
    | cons record rest ih =>
      intro journal
      obtain ⟨frames, hframes, hrecords⟩ := ih (journal.appended record)
      refine ⟨⟨journal.nextSequence, record⟩ :: frames, ?_, by rw [List.map_cons, hrecords]⟩
      rw [List.foldl_cons, hframes, appended, List.append_assoc]
      rfl
  obtain ⟨frames, hsame, hrecords⟩ := hframes added journal
  exact ⟨journal, _, frames, hjournal, hjournal', hsame, hrecords⟩

/-- A transaction that keeps the journal behind the ledger, also if it is interrupted. -/
structure Safe (core core' : EngineCore) : Prop where
  attached : ∃ journal, core'.Attached journal
  backed : core'.Backed
  crashSafe : core.CrashSafe core'

section Transactions

variable {journal : Journal} (hattached : core.Attached journal) (h : core.Backed)

include hattached h

theorem safe_of_journal_eq (hjournal : core'.journal = core.journal)
    (hready : core'.journalReady = core.journalReady)
    (hnext : core.nextDecisionSequence ≤ core'.nextDecisionSequence)
    (hledger : core'.ledger.clearRevalidationFlags.byDecision =
      core.ledger.clearRevalidationFlags.byDecision)
    (hwf : core'.ledger.WellFormed) : core.Safe core' := by
  have hjournal' : core'.journal = some journal := hjournal.trans hattached.journal_eq
  have hrecords : core'.records = core.records := by rw [records, records, hjournal]
  have happends : core.Appends core' [] := .of_foldl hattached.journal_eq hjournal'
  have hbacked := h.mono hrecords hnext hledger hwf
  exact ⟨⟨journal, hjournal', hready.trans hattached.ready, hattached.clear⟩, hbacked,
    h.crashSafe hbacked happends (Nat.zero_le _)⟩

theorem safe_of_appended (hjournal : core'.journal = some (journal.appended record))
    (hready : core'.journalReady = core.journalReady) (hfollows : MayFollow core.records record)
    (hreleased : record.released? = none)
    (hcommit : ∀ decision, record ≠ .admissionCommit decision)
    (hdecision : ∀ decision, record.decision? = some decision →
      decision.decision < core'.nextDecisionSequence)
    (hnext : core.nextDecisionSequence ≤ core'.nextDecisionSequence)
    (hledger : core'.ledger.clearRevalidationFlags.byDecision =
      core.ledger.clearRevalidationFlags.byDecision) (hwf : core'.ledger.WellFormed) :
    core.Safe core' := by
  have happends : core.Appends core' [record] := .of_foldl hattached.journal_eq hjournal
  have hbacked := h.concat happends.records_eq hfollows hreleased hcommit hdecision hnext
    hledger hwf
  exact ⟨⟨_, hjournal, hready.trans hattached.ready, hattached.clear⟩, hbacked,
    h.crashSafe hbacked happends le_rfl⟩

theorem safe_of_middle (hmiddle : middle.Backed)
    (hfirst : middle.journal = some (journal.appended first))
    (hsecond : core'.journal = some ((journal.appended first).appended second))
    (hready : core'.journalReady = core.journalReady) (h' : core'.Backed)
    (hload : middle.ledger.byDecision = core.ledger.byDecision ∨
      middle.ledger.byDecision = core'.ledger.byDecision) : core.Safe core' :=
  ⟨⟨_, hsecond, hready.trans hattached.ready, hattached.clear⟩, h',
    h.crashSafe_of_middle hmiddle h' (.of_foldl hattached.journal_eq hfirst)
      (.of_foldl hattached.journal_eq hsecond) hload⟩

theorem safe_refusal (request : AdmissionRequest) (claim : ClaimContext) (reason : Refusal)
    (evidence : Option Evidence) (recordAttempt : Bool) :
    core.Safe (core.consumeIdentity.finishRefusal (core.refusal request claim reason evidence)
      request recordAttempt).2 := by
  have hdecision := core.decision_refusal request claim reason evidence
  generalize core.refusal request claim reason evidence = decision at hdecision ⊢
  generalize hcall : core.consumeIdentity.finishRefusal decision request recordAttempt = outcome
  have hid : (core.consumeIdentity.toRecord decision).decision = core.nextDecisionSequence :=
    hdecision
  have hnew := h.new
  cases finishRefusal_effect hcall with
  | unwritten hwrite =>
    rcases hattached.write hwrite with ⟨hok, -⟩ | ⟨-, rfl⟩
    · cases hok
    · exact safe_of_journal_eq hattached h hattached.journal_eq.symm rfl (Nat.le_succ _) rfl
        h.wellFormed
  | settled hwrite =>
    rcases hattached.write hwrite with ⟨-, rfl⟩ | ⟨⟨status, hfailed⟩, -⟩
    · refine safe_of_appended hattached h rfl rfl ⟨?_, ?_⟩ rfl (by simp) ?_ (Nat.le_succ _) rfl
        h.wellFormed
      · rw [hid]
        exact Nat.ne_of_gt h.next_pos
      · rwa [hid]
      · rintro record ⟨⟩
        exact Nat.lt_succ_of_le hid.le
    · cases hfailed

theorem safe_note (hnote : core.IsNote record) : core.Safe (core.writeRecord record).2 := by
  rcases hwrite : writeJournal core.journal core.journalReady record with ⟨result, journal'⟩
  rw [writeRecord_eq _ _ hwrite]
  rcases hattached.write hwrite with ⟨-, rfl⟩ | ⟨-, rfl⟩
  · cases hnote <;>
      exact safe_of_appended hattached h rfl rfl (by simp [MayFollow, revocationOf]) rfl (by simp)
        (by rintro record ⟨⟩) le_rfl rfl h.wellFormed
  · exact safe_of_journal_eq hattached h hattached.journal_eq.symm rfl le_rfl rfl
      h.wellFormed

theorem safe_clearFlags :
    core.Safe { core with ledger := core.ledger.clearRevalidationFlags } :=
  safe_of_journal_eq hattached h rfl rfl le_rfl
    (congrArg byDecision (core.ledger.setFlags_setFlags false false))
    (h.wellFormed.setFlags false)

theorem safe_mark (d : AdmissionDecisionId) (f : DecisionRecord → DecisionRecord) :
    core.Safe { core with history := core.history.modify d f } :=
  safe_of_journal_eq hattached h rfl rfl le_rfl rfl h.wellFormed

theorem safe_steady (hstores : core'.stores = core.stores) : core.Safe core' := by
  have hledger : core'.ledger = core.ledger := congrArg Stores.ledger hstores
  have hnext : core'.nextDecisionSequence = core.nextDecisionSequence :=
    congrArg Stores.nextDecisionSequence hstores
  exact safe_of_journal_eq hattached h (congrArg Stores.journal hstores)
    (congrArg Stores.journalReady hstores) hnext.ge (by rw [hledger]) (hledger ▸ h.wellFormed)

theorem safe_release (hremovable : core.ledger.holds d = true → core.ledger.Removable d)
    (reason : RevocationReason) (explanation : Explanation) :
    core.Safe (core.releaseDecisionLocked d reason .revoked explanation).2 := by
  generalize hcall : core.releaseDecisionLocked d reason .revoked explanation = outcome
  have happended := hattached.appended (.ledgerRelease (core.releaseOf d reason))
  -- the state in which the release frame is the last one
  have hmiddle : ∀ {es : List LedgerEntry} {ledger : AdmittedLoadLedger},
      core.ledger.holds d = true → core.ledger.release d = .ok (es, ledger) →
      core.Safe { core with
        journal := some (journal.appended (.ledgerRelease (core.releaseOf d reason)))
        ledger := ledger } := by
    intro es ledger hheld hrelease
    have happends : core.Appends { core with
        journal := some (journal.appended (.ledgerRelease (core.releaseOf d reason))), ledger }
        [.ledgerRelease (core.releaseOf d reason)] := .of_foldl hattached.journal_eq rfl
    have hbacked := h.released hheld hrelease rfl happends.records_eq rfl le_rfl
    exact ⟨⟨_, rfl, hattached.ready, hattached.clear⟩, hbacked,
      h.crashSafe hbacked happends le_rfl⟩
  cases releaseDecisionLocked_effect hcall with
  | unheld _ => exact safe_of_journal_eq hattached h rfl rfl le_rfl rfl h.wellFormed
  | unwritten _ hwrite =>
    rcases hattached.write hwrite with ⟨hok, -⟩ | ⟨-, rfl⟩
    · cases hok
    · exact safe_of_journal_eq hattached h hattached.journal_eq.symm rfl le_rfl rfl
        h.wellFormed
  | stuck hheld _ hrelease =>
    obtain ⟨out, hok⟩ := (release_isOk_iff hheld).mpr (hremovable hheld)
    rw [hrelease] at hok
    cases hok
  | unmarked hheld hwrite hrelease hmark =>
    rcases hattached.write hwrite with ⟨-, rfl⟩ | ⟨⟨status, hfailed⟩, -⟩
    · rcases happended.write hmark with ⟨hok, -⟩ | ⟨-, rfl⟩
      · cases hok
      · exact hmiddle hheld hrelease
    · cases hfailed
  | @released _ _ es ledger hheld hwrite hrelease hmark =>
    rcases hattached.write hwrite with ⟨-, rfl⟩ | ⟨⟨status, hfailed⟩, -⟩
    · rcases happended.write hmark with ⟨-, rfl⟩ | ⟨⟨status, hfailed⟩, -⟩
      · have hreleased := (hmiddle hheld hrelease).backed
        refine safe_of_middle hattached h hreleased rfl rfl rfl ?_ (Or.inr rfl)
        refine hreleased.concat (records_appended _ _) (Or.inr ?_) rfl (by simp) ?_
          le_rfl rfl hreleased.wellFormed
        · change d ∈ releasedIn
            (journal.appended (.ledgerRelease (core.releaseOf d reason))).records
          rw [records_appended, releasedIn_concat]
          exact List.mem_append_right _ (List.mem_singleton_self d)
        · rintro record ⟨⟩
      · cases hfailed
    · cases hfailed

theorem safe_grant {request : AdmissionRequest} {grant : Grant}
    (hverdict : core.verdict request claim = .grant grant)
    (hcount : (core.ledger.reserve core.nextDecisionSequence request.demand core.epoch
        ((core.capacity.map (·.generation)).getD 0) grant.evidence.path (amountsOf grant)).1 =
          .ok () → journal.frameCount + 2 < journal.options.compactAtRecords) :
    core.Safe (core.consumeIdentity.finishAdmission (core.admission request claim grant) request
      (amountsOf grant)).2 := by
  have hnodup := nodup_amountsOf (verdict_eq_grant hverdict).2.2.2
  have hforce : (core.consumeIdentity.liveRecord (core.admission request claim grant)).InForce :=
    ⟨Authority.isAdmitting_of_evaluate (verdict_eq_grant hverdict).2.2.2, by rintro ⟨⟩,
      by rintro ⟨⟩⟩
  generalize hprepareOf : core.consumeIdentity.prepareOf (core.admission request claim grant)
    (amountsOf grant) = prepare
  -- the state in which the intent is the last frame
  have hmiddle : ∀ {core' : EngineCore},
      core'.journal = some (journal.appended (.admissionPrepare prepare)) →
      core'.journalReady = core.journalReady →
      core.nextDecisionSequence ≤ core'.nextDecisionSequence →
      core'.ledger.byDecision = core.ledger.byDecision → core'.ledger.WellFormed →
      core.Safe core' := by
    intro core' hjournal hready hnext hledger hwf
    exact safe_of_appended hattached h hjournal hready (hprepareOf ▸ hnodup) rfl (by simp)
      (by rintro record ⟨⟩) hnext (clear_byDecision_congr hledger) hwf
  have hwf : ∀ {result : Except Status Unit} {ledger : AdmittedLoadLedger},
      core.ledger.reserve core.nextDecisionSequence request.demand core.epoch
        ((core.capacity.map (·.generation)).getD 0) grant.evidence.path (amountsOf grant) =
          (result, ledger) → ledger.WellFormed := by
    intro result ledger hreserve
    have hreserved := h.wellFormed.reserve core.nextDecisionSequence request.demand core.epoch
      ((core.capacity.map (·.generation)).getD 0) grant.evidence.path hnodup
    rwa [hreserve] at hreserved
  generalize hcall : core.consumeIdentity.finishAdmission _ _ _ = outcome
  cases finishAdmission_effect hcall with
  | unprepared hprepare =>
    rcases hattached.write (hprepareOf ▸ hprepare) with ⟨hok, -⟩ | ⟨-, rfl⟩
    · cases hok
    · exact safe_of_journal_eq hattached h hattached.journal_eq.symm rfl (Nat.le_succ _) rfl
        h.wellFormed
  | unreserved hprepare hreserve =>
    rcases hattached.write (hprepareOf ▸ hprepare) with ⟨-, rfl⟩ | ⟨⟨status, hfailed⟩, -⟩
    · obtain ⟨hby, -⟩ := reserve_of_error hnodup hreserve
      exact hmiddle rfl rfl (Nat.le_succ _) hby (hwf hreserve)
    · cases hfailed
  | uncommitted hprepare hreserve hcommit =>
    rcases hattached.write (hprepareOf ▸ hprepare) with ⟨-, rfl⟩ | ⟨⟨status, hfailed⟩, -⟩
    · rcases (hattached.appended _).write hcommit with ⟨hok, -⟩ | ⟨-, rfl⟩
      · cases hok
      · obtain ⟨es, released, hrelease, hby, -⟩ :=
          release_of_reserve hnodup hreserve
        rw [undone_eq hrelease]
        exact hmiddle rfl rfl (Nat.le_succ _) hby ((hwf hreserve).release hrelease)
    · cases hfailed
  | committed hprepare hreserve hcommit =>
    rcases hattached.write (hprepareOf ▸ hprepare) with ⟨-, rfl⟩ | ⟨⟨status, hfailed⟩, -⟩
    · rcases (hattached.appended _).write hcommit with ⟨-, rfl⟩ | ⟨⟨status, hfailed⟩, -⟩
      · have huncompacted : ∀ {core' : EngineCore} {first second : JournalRecord},
            core'.journal = some ((journal.appended first).appended second) →
            core'.journalReady = core.journalReady → core.Safe core' →
            core.Safe core'.compactIfNeededLocked.2 := by
          intro core' first second hjournal hready hsafe
          rwa [Attached.compactIfNeeded ⟨hjournal, hready.trans hattached.ready, hattached.clear⟩
            (hcount (congrArg Prod.fst hreserve))]
        refine huncompacted rfl rfl ?_
        have hprepared : core.Safe { core with
            journal := some (journal.appended (.admissionPrepare prepare)) } :=
          hmiddle rfl rfl le_rfl rfl h.wellFormed
        refine safe_of_middle hattached h hprepared.backed rfl rfl rfl ?_ (Or.inl rfl)
        have hlast : [.admissionPrepare prepare] <:+
            (journal.appended (.admissionPrepare prepare)).records := by
          rw [records_appended]
          exact List.suffix_append _ _
        subst hprepareOf
        exact hprepared.backed.granted hlast rfl rfl hforce hreserve
          (records_appended _ _) rfl (Nat.lt_succ_self _)
      · cases hfailed
    · cases hfailed

end Transactions

/-! ### Operations -/

/-- The load that an operation may release can be released: its totals have not been erased. What
an enforcement pass may release has no amount of zero. -/
def CanRelease (ledger : AdmittedLoadLedger) : Operation → Prop
  | .publishPolicy _ | .publishCapacity _ | .publishReservations _ =>
    ∀ e ∈ ledger.heldEntries, e.amount ≠ 0
  | .revalidate d _ | .revoke d _ _ => ledger.holds d = true → ledger.Removable d
  | _ => True

/-- An operation compacts the journal, if its writes succeed. -/
def Compacts (core : EngineCore) : Operation → Prop
  | .compactJournal => True
  | .admitRequest request claim => ∃ grant journal, core.verdict request claim = .grant grant ∧
      (core.ledger.reserve core.nextDecisionSequence request.demand core.epoch
        ((core.capacity.map (·.generation)).getD 0) grant.evidence.path (amountsOf grant)).1 =
          .ok () ∧
      core.journal = some journal ∧ journal.options.compactAtRecords ≤ journal.frameCount + 2
  | _ => False

/-- Transactions one after the other, each of them safe against a crash. -/
def SafeChain : EngineCore → EngineCore → Prop :=
  ReflTransGen fun before after => Transaction before after ∧ before.CrashSafe after

theorem CanRelease.removable {operation : Operation} (h : CanRelease core.ledger operation)
    (hbacked : core.Backed) (hmay : operation.Releases d) (hheld : core.ledger.holds d = true) :
    core.ledger.Removable d := by
  have hpositive : (∀ e ∈ core.ledger.heldEntries, e.amount ≠ 0) → core.ledger.Removable d := by
    intro hall
    rw [hbacked.wellFormed.removable_iff (hbacked.ne_zero hheld) hheld]
    obtain ⟨es, hes⟩ := holds_eq_true_iff.mp hheld
    intro e he
    rw [held_of_getElem? hes] at he
    exact Or.inl (hall e (mem_heldEntries.mpr ⟨d, es, hes, he⟩))
  cases operation with
  | publishPolicy _ | publishCapacity _ | publishReservations _ => exact hpositive h
  | revalidate _ _ | revoke _ _ _ =>
    obtain rfl : d = _ := hmay
    exact h hheld
  | _ => exact hmay.elim

theorem CanRelease.setFlags {operation : Operation} (h : CanRelease ledger operation)
    (flag : Bool) : CanRelease (ledger.setFlags flag) operation := by
  cases operation with
  | publishPolicy _ | publishCapacity _ | publishReservations _ =>
    intro e he
    rw [heldEntries_setFlags] at he
    obtain ⟨e', he', rfl⟩ := List.mem_map.mp he
    exact h e' he'
  | revalidate d _ | revoke d _ _ =>
    intro hheld
    rw [holds_setFlags] at hheld
    obtain ⟨hne, hall⟩ := h hheld
    refine ⟨hne, fun e he => ?_⟩
    rw [held_setFlags] at he
    obtain ⟨e', he', rfl⟩ := List.mem_map.mp he
    exact hall e' he'
  | _ => trivial

theorem CanRelease.release {operation : Operation} (h : CanRelease ledger operation)
    (hmay : operation.Releases d) (hrelease : ledger.release d = .ok (es, ledger')) :
    CanRelease ledger' operation := by
  obtain ⟨-, hes, -, rfl⟩ := release_eq_ok_iff.mp hrelease
  cases operation with
  | publishPolicy _ | publishCapacity _ | publishReservations _ =>
    intro e he
    exact h e ((heldEntries_perm_without hes).mem_iff.mpr
      (List.mem_append_right _ he))
  | revalidate _ _ | revoke _ _ _ =>
    obtain rfl : d = _ := hmay
    intro hheld
    rw [AdmittedLoadLedger.holds, getElem?_byDecision_without, if_pos rfl]
      at hheld
    cases hheld
  | _ => trivial

/-- What is true while an operation is carried out. -/
structure Underway (start : EngineCore) (operation : Operation) (core : EngineCore) : Prop where
  attached : ∃ journal, core.Attached journal
  backed : core.Backed
  canRelease : CanRelease core.ledger operation
  chain : start.SafeChain core

namespace Underway

variable {start : EngineCore} {operation : Operation}

theorem tail (h : start.Underway operation core) (htransaction : Transaction core core')
    (hsafe : core.Safe core') (hrelease : CanRelease core'.ledger operation) :
    start.Underway operation core' :=
  ⟨hsafe.attached, hsafe.backed, hrelease, h.chain.tail ⟨htransaction, hsafe.crashSafe⟩⟩

theorem release (h : start.Underway operation core) (hmay : operation.Releases d)
    (reason : RevocationReason) (explanation : Explanation) :
    start.Underway operation (core.releaseDecisionLocked d reason .revoked explanation).2 := by
  obtain ⟨journal, hattached⟩ := h.attached
  refine h.tail (.release core d reason explanation) (safe_release hattached h.backed
    (h.canRelease.removable h.backed hmay) reason explanation) ?_
  generalize hcall : core.releaseDecisionLocked d reason .revoked explanation = outcome
  cases releaseDecisionLocked_effect hcall with
  | unheld _ | unwritten _ _ | stuck _ _ _ => exact h.canRelease
  | unmarked _ _ hrelease _ | released _ _ hrelease _ => exact h.canRelease.release hmay hrelease

theorem ofStores (start : EngineCore) (operation : Operation) :
    OfStores (start.Underway operation) := by
  intro core core' hstores h
  obtain ⟨journal, hattached⟩ := h.attached
  have hledger : core'.ledger = core.ledger := congrArg Stores.ledger hstores
  exact h.tail (.steady core core' hstores) (safe_steady hattached h.backed hstores)
    (hledger ▸ h.canRelease)

theorem housekeeping (start : EngineCore) (operation : Operation) :
    Housekeeping operation.Releases (start.Underway operation) where
  release core d reason explanation hmay h := h.release hmay reason explanation
  mark core d f _ _ h := by
    obtain ⟨journal, hattached⟩ := h.attached
    exact h.tail (.mark core d f) (safe_mark hattached h.backed d f) h.canRelease
  note core record hnote h := by
    obtain ⟨journal, hattached⟩ := h.attached
    exact h.tail (.note core record hnote) (safe_note hattached h.backed hnote) h.canRelease
  clearFlags core h := by
    obtain ⟨journal, hattached⟩ := h.attached
    exact h.tail (.clearFlags core) (safe_clearFlags hattached h.backed)
      (h.canRelease.setFlags false)
  steady core core' hstores _ h := ofStores start operation core core' hstores h

theorem refuse {request : AdmissionRequest}
    (h : start.Underway (.admitRequest request claim) core) (reason : Refusal)
    (evidence : Option Evidence) (recordAttempt : Bool) :
    start.Underway (.admitRequest request claim)
      (core.refuse request claim reason evidence recordAttempt).2 := by
  obtain ⟨journal, hattached⟩ := h.attached
  rw [EngineCore.refuse, answer_snd]
  exact h.tail (.refusal core request claim reason evidence recordAttempt)
    (safe_refusal hattached h.backed request claim reason evidence recordAttempt) trivial

theorem admitLocked {request : AdmissionRequest}
    (h : start.Underway (.admitRequest request claim) core)
    (hcompacts : ¬ core.Compacts (.admitRequest request claim)) :
    start.Underway (.admitRequest request claim) (core.admitLocked request claim).2 := by
  have hcounted : start.Underway (.admitRequest request claim) core.countReplay :=
    ofStores start _ core core.countReplay rfl h
  obtain ⟨journal, hattached⟩ := h.attached
  unfold EngineCore.admitLocked
  cases hverdict : core.verdict request claim with
  | refuse reason evidence recordAttempt => exact h.refuse reason evidence recordAttempt
  | retired reason => exact hcounted.refuse reason none false
  | replay decision => exact hcounted
  | grant grant =>
    rw [answer_snd]
    refine h.tail (.grant core request claim grant hverdict)
      (safe_grant hattached h.backed hverdict fun hreserve => ?_) trivial
    refine Nat.lt_of_not_le fun hle => hcompacts ?_
    exact ⟨grant, journal, hverdict, hreserve, hattached.journal_eq, hle⟩

end Underway

theorem Backed.perform {journal : Journal} (h : core.Backed) (hattached : core.Attached journal)
    {operation : Operation} (hcompacts : ¬ core.Compacts operation)
    (hrelease : CanRelease core.ledger operation) :
    core.Underway operation (core.perform operation).2 := by
  have hstart : core.Underway operation core := ⟨⟨journal, hattached⟩, h, hrelease, .refl⟩
  refine (Underway.housekeeping core operation).perform (Underway.ofStores core operation) hstart
    (fun _ hmay => hmay) ?_ ?_
  · rintro request claim rfl
    exact hstart.admitLocked hcompacts
  · rintro rfl
    exact (hcompacts trivial).elim

/-! ### Runs -/

/-- A call that does not compact, whose writes and releases succeed, or a restart that does. -/
def Uninterrupted (core : EngineCore) : Event → Prop
  | .call call =>
    call.disk = [] ∧ ¬ core.Compacts call.operation ∧ CanRelease core.ledger call.operation
  | .restart config surviving disk => (core.restart config surviving disk).1.status = none

/-- An engine that has opened a new journal. -/
def NewlyOpened (core : EngineCore) : Prop :=
  ∃ config journal, journal.records = [] ∧ (boot config journal).1.status = none ∧
    core = (boot config journal).2

theorem Backed.onDisk (h : core.Backed) (disk : List DiskOutcome) : (core.onDisk disk).Backed :=
  h.mono (core.records_onDisk disk) le_rfl rfl h.wellFormed

theorem Compacts.of_onDisk {disk : List DiskOutcome} {operation : Operation}
    (h : (core.onDisk disk).Compacts operation) : core.Compacts operation := by
  cases operation with
  | admitRequest request claim =>
    obtain ⟨grant, journal, hverdict, hreserve, hjournal, hcount⟩ := h
    obtain ⟨journal', hjournal', rfl⟩ := Option.map_eq_some_iff.mp hjournal
    exact ⟨grant, journal', hverdict, hreserve, hjournal', hcount⟩
  | _ => exact h

theorem backed_boot {journal : Journal} (hstatus : (boot config journal).1.status = none)
    (h : Chronological journal.records) : (boot config journal).2.Backed := by
  obtain ⟨-, hrecords⟩ := records_boot hstatus
  have hmirrors := mirrors_boot hstatus h
  have hwf := wellFormed_boot hstatus h
  obtain ⟨opened, state, ledger, epoch, journal', -, hreplay, -, -, -, heq⟩ :=
    boot_eq_recoveredCore hstatus
  have hnext : (boot config journal).2.nextDecisionSequence = state.maxDecisionSequence + 1 := by
    rw [heq]
    rfl
  refine ⟨?_, ?_, fun d hd => ?_, hnext ▸ Nat.succ_pos _, hwf⟩
  · rw [hrecords]
    exact h.concat trivial
  · rw [hrecords]
    exact hmirrors.congr rfl fun _ _ => loaded_concat rfl (by simp)
  · rw [hrecords, decidedIn_concat, List.mem_append] at hd
    rw [hnext]
    rcases hd with hd | hd
    · obtain ⟨record, hrecord, rfl⟩ := List.mem_map.mp hd
      exact Nat.lt_succ_of_le (ReplayState.decision_le_of_replayFrames hreplay hrecord)
    · cases hd

theorem backed_of_reachable (h : Reachable NewlyOpened follow Uninterrupted core) :
    core.Durable ∧ core.Backed := by
  refine h.invariant (I := fun core => core.Durable ∧ core.Backed) ?_ ?_
  · rintro _ ⟨config, journal, hrecords, hstatus, rfl⟩
    exact ⟨(records_boot hstatus).1, backed_boot hstatus (hrecords ▸ Chronological.nil)⟩
  · rintro core event ⟨hdurable, hbacked⟩ hguard
    cases event with
    | call call =>
      obtain ⟨operation, disk⟩ := call
      obtain ⟨rfl, hcompacts, hrelease⟩ := hguard
      obtain ⟨journal, hattached⟩ := hdurable.attached
      have hafter := (hbacked.onDisk []).perform hattached (fun hc => hcompacts hc.of_onDisk)
        hrelease
      obtain ⟨journal', hattached'⟩ := hafter.attached
      exact ⟨hattached'.durable, hafter.backed⟩
    | restart config surviving disk =>
      obtain ⟨journal, hjournal, hrecords⟩ := hdurable.exists_journal
      have hboot : core.restart config surviving disk =
          boot config { journal.cut surviving with disk } := by rw [restart, hjournal]
      change (core.restart config surviving disk).1.status = none at hguard
      change (core.restart config surviving disk).2.Durable ∧
        (core.restart config surviving disk).2.Backed
      rw [hboot] at hguard ⊢
      refine ⟨(records_boot hguard).1, backed_boot hguard ?_⟩
      have hinitial : (journal.cut surviving).records <+: journal.records :=
        (completeFrames_isPrefix _ _).map _
      exact (hrecords ▸ hbacked.ordered).of_initial hinitial

/-- Crash consistency over any number of incarnations. In a run without compactions and failed
writes in which the ledger accepts every release, a crash between operations and a crash in any
transaction of an operation is recovered from with the load that the surviving frames commit to,
which is the load in memory before the transaction or after it. -/
theorem crashSafe_of_reachable (h : Reachable NewlyOpened follow Uninterrupted core) :
    core.CrashSafe core ∧ ∀ operation, core.Uninterrupted (.call { operation }) →
      (core.onDisk []).SafeChain (core.after { operation }) := by
  obtain ⟨hdurable, hbacked⟩ := backed_of_reachable h
  refine ⟨?_, fun operation hguard => ?_⟩
  · obtain ⟨journal, hjournal, -⟩ := hdurable.exists_journal
    have happends : core.Appends core [] := .of_foldl hjournal hjournal
    exact hbacked.crashSafe hbacked happends (Nat.zero_le _)
  · obtain ⟨journal, hattached⟩ := hdurable.attached
    obtain ⟨-, hcompacts, hrelease⟩ := hguard
    exact ((hbacked.onDisk []).perform hattached (fun hc => hcompacts hc.of_onDisk) hrelease).chain

theorem allowed_announce : Allowed follow Uninterrupted (boot {} {}).2
    (Event.calls (announce [known 1 1 100])) := by
  refine ⟨⟨rfl, id, ?_⟩, ⟨rfl, id, ?_⟩, ⟨rfl, id, ?_⟩, ⟨rfl, id, trivial⟩, ⟨rfl, id, trivial⟩,
    trivial⟩ <;>
  · change ∀ e ∈ heldEntries _, _
    decide +kernel

theorem reachable_announce : Reachable NewlyOpened follow Uninterrupted
    ((boot {} {}).2.performAll (announce [known 1 1 100])) := by
  have hnew : Reachable NewlyOpened follow Uninterrupted (boot {} {}).2 :=
    .init ⟨{}, {}, rfl, by decide +kernel, rfl⟩
  have hrun := hnew.run allowed_announce
  exact hrun

/-- A grant on a newly opened journal, and the frames it adds. -/
theorem crashSafe_plainGrant :
    let core := (boot {} {}).2.performAll (announce [known 1 1 100])
    let granted := core.after { operation := .admitRequest (request 1 ⟨1, 20, 20⟩ [1]) {} }
    granted.ledger.holds 1 = true ∧ core.CrashSafe core ∧
      (core.onDisk []).SafeChain granted := by
  -- stated for a variable: the run itself is evaluated by the kernel only
  have hsafe : ∀ core : EngineCore, Reachable NewlyOpened follow Uninterrupted core →
      core.journal.map (fun journal =>
        decide (journal.frameCount + 2 < journal.options.compactAtRecords)) = some true →
      core.CrashSafe core ∧ (core.onDisk []).SafeChain
        (core.after { operation := .admitRequest (request 1 ⟨1, 20, 20⟩ [1]) {} }) := by
    intro core hreachable hroom
    obtain ⟨hbetween, hduring⟩ := crashSafe_of_reachable hreachable
    refine ⟨hbetween, hduring _ ⟨rfl, ?_, trivial⟩⟩
    rintro ⟨grant, journal, -, -, hjournal, hcount⟩
    rw [hjournal, Option.map_some, Option.some.injEq, decide_eq_true_iff] at hroom
    exact Nat.not_le.mpr hroom hcount
  exact ⟨by decide +kernel, hsafe _ reachable_announce (by decide +kernel)⟩

/-- The release frame of a grant of zero is written, but the ledger refuses the release. A recovery
restores neither the load before the call nor the load after it. -/
theorem torn_erasedTotal :
    let core := (boot {} {}).2.performAll erasedTotal
    let after := core.after { operation := .revoke 2 .operatorRequest {} }
    core.ledger.holds 2 = true ∧ after.ledger.holds 2 = true ∧
      (after.restart {} after.journalBytes []).1.status = none ∧
      (after.restart {} after.journalBytes []).2.ledger.holds 2 = false ∧
      ¬ core.CrashSafe after := by
  have hfacts : let core := (boot {} {}).2.performAll erasedTotal
      let after := core.after { operation := .revoke 2 .operatorRequest {} }
      core.ledger.holds 2 = true ∧ after.ledger.holds 2 = true ∧
        (after.restart {} after.journalBytes []).1.status = none ∧
        (after.restart {} after.journalBytes []).2.ledger.holds 2 = false ∧
        core.journalBytes ≤ after.journalBytes := by decide +kernel
  obtain ⟨hbefore, hafter, hstatus, hlost, hbytes⟩ := hfacts
  refine ⟨hbefore, hafter, hstatus, hlost, fun hsafe => ?_⟩
  have hheld : ∀ ledger ledger' : AdmittedLoadLedger,
      ledger.byDecision = ledger'.markAllRequiringRevalidation.byDecision →
      ledger'.holds 2 = true → ledger.holds 2 = true := by
    intro ledger ledger' hsame hheld
    rwa [AdmittedLoadLedger.holds, hsame, ← AdmittedLoadLedger.holds,
      markAllRequiringRevalidation, holds_setFlags]
  obtain ⟨-, hsame | hsame⟩ := hsafe {} _ [] hbytes hstatus
  · exact Bool.false_ne_true (hlost.symm.trans (hheld _ _ hsame hbefore))
  · exact Bool.false_ne_true (hlost.symm.trans (hheld _ _ hsame hafter))

end EngineCore

end AdmissionFabric
