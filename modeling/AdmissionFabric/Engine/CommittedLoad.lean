import AdmissionFabric.Engine.JournalOrder
import AdmissionFabric.Engine.RestoredState
import Mathlib.Data.List.Induction

/-!
# The load that a journal commits to

A journal commits to the load of a decision with an intent that is directly followed by its
commit, until it has a release frame of the decision. The frames that an engine writes without
failures are in an order in which a recovery restores exactly this load: identities are decided
once, a commit follows its intent, and a decision is marked as revoked only after its release.
The order passes to every prefix of the file.

An intent whose commit was lost in a crash may be followed by another intent of the same identity;
only the intent in front of the commit counts.

Source: `src/engine/engine.cpp`, `finish_admission` and `open_durable`.
-/

namespace AdmissionFabric

open AdmittedLoadLedger

variable {d : AdmissionDecisionId} {es : List LedgerEntry} {prepare : PrepareRecord}
    {record : JournalRecord}

/-! ### The order of the frames -/

/-- Whether a record may be written behind others. -/
def MayFollow (done : List JournalRecord) : JournalRecord → Prop
  | .bootEpoch _ | .policyConfig _ | .auditMark _ => True
  | .admissionPrepare prepare => (prepare.amounts.map Prod.fst).Nodup
  | .admissionCommit record => record.decision ≠ 0 ∧ record.decision ∉ decidedIn done ∧
      record.InForce ∧ ∃ prepare : PrepareRecord, prepare.decision = record.decision ∧
        [.admissionPrepare prepare] <:+ done
  | .admissionRefused record => record.decision ≠ 0 ∧ record.decision ∉ decidedIn done
  | .ledgerRelease record => record.decision ∈ decidedIn done
  | .revocation record =>
    record.state ≠ .revoked ∧ record.state ≠ .expired ∨ record.decision ∈ releasedIn done

/-- Every record may be written behind those before it. -/
def Chronological (records : List JournalRecord) : Prop :=
  ∀ done record, done ++ [record] <+: records → MayFollow done record

variable {records records' : List JournalRecord}

theorem decidedIn_concat (records : List JournalRecord) (record : JournalRecord) :
    decidedIn (records ++ [record]) =
      decidedIn records ++ (record.decision?.map (·.decision)).toList := by
  cases record <;> simp [decidedIn, decisionsIn, JournalRecord.decision?]

namespace Chronological

theorem nil : Chronological [] := fun done record h => by simp at h

theorem of_initial (h : Chronological records) (hinitial : records' <+: records) :
    Chronological records' :=
  fun done record hdone => h done record (hdone.trans hinitial)

theorem concat (h : Chronological records) (hfollows : MayFollow records record) :
    Chronological (records ++ [record]) := by
  intro done record' hdone
  rcases List.prefix_concat_iff.mp hdone with heq | hdone
  · obtain ⟨rfl, hlast⟩ := List.append_inj' heq rfl
    obtain rfl := List.singleton_inj.mp hlast
    exact hfollows
  · exact h done record' hdone

theorem mayFollow_of_mem (h : Chronological records) (hmem : record ∈ records) :
    ∃ done, done ++ [record] <+: records ∧ MayFollow done record := by
  obtain ⟨done, rest, rfl⟩ := List.append_of_mem hmem
  have hdone : done ++ [record] <+: done ++ record :: rest := ⟨rest, by simp⟩
  exact ⟨done, hdone, h done record hdone⟩

theorem nodup_decidedIn (h : Chronological records) :
    (decidedIn records).Nodup ∧ 0 ∉ decidedIn records := by
  induction records using List.reverseRecOn with
  | nil => exact ⟨List.nodup_nil, List.not_mem_nil⟩
  | append_singleton done record ih =>
    obtain ⟨hnodup, hzero⟩ := ih (h.of_initial (List.prefix_append _ _))
    have hfollows := h done record List.prefix_rfl
    have hnew : ∀ d, d ≠ 0 → d ∉ decidedIn done →
        (decidedIn done ++ [d]).Nodup ∧ 0 ∉ decidedIn done ++ [d] := fun d hne hd =>
      ⟨List.nodup_append.mpr ⟨hnodup, List.nodup_singleton d, fun a ha b hb hab =>
        hd (List.mem_singleton.mp hb ▸ hab ▸ ha)⟩, by simp [hzero, hne.symm]⟩
    rw [decidedIn_concat]
    cases record with
    | admissionCommit record => exact hnew _ hfollows.1 hfollows.2.1
    | admissionRefused record => exact hnew _ hfollows.1 hfollows.2
    | _ => simpa [JournalRecord.decision?] using ⟨hnodup, hzero⟩

theorem committed_of_mem (h : Chronological records) {record : DecisionRecord}
    (hmem : .admissionCommit record ∈ records) :
    record.InForce ∧ ∃ prepare, Committed records prepare record := by
  obtain ⟨done, hdone, -, -, hforce, prepare, hdecision, t, rfl⟩ := h.mayFollow_of_mem hmem
  obtain ⟨rest, rfl⟩ := hdone
  exact ⟨hforce, prepare, hdecision, t, rest, by simp⟩

theorem decided_of_released (h : Chronological records) (hd : d ∈ releasedIn records) :
    d ∈ decidedIn records := by
  obtain ⟨record, hmem, hkind⟩ := List.mem_filterMap.mp hd
  cases record <;> simp only [JournalRecord.released?, reduceCtorEq, Option.some.injEq] at hkind
  obtain ⟨done, hdone, hfollows⟩ := h.mayFollow_of_mem hmem
  have hsublist : (decidedIn done).Sublist (decidedIn records) :=
    (((List.prefix_append done _).trans hdone).sublist.filterMap _).map _
  exact hkind ▸ hsublist.subset hfollows

theorem released_of_revocation (h : Chronological records) {revocation : RevocationRecord}
    (hmem : .revocation revocation ∈ records)
    (hover : revocation.state = .revoked ∨ revocation.state = .expired) :
    revocation.decision ∈ releasedIn records := by
  obtain ⟨done, hdone, ⟨hrevoked, hexpired⟩ | hreleased⟩ := h.mayFollow_of_mem hmem
  · exact (hover.elim hrevoked hexpired).elim
  · exact ((((List.prefix_append done _).trans hdone).sublist).filterMap _).subset hreleased

theorem nodup_amounts (h : Chronological records) (hmem : .admissionPrepare prepare ∈ records) :
    (prepare.amounts.map Prod.fst).Nodup := by
  obtain ⟨done, -, hfollows⟩ := h.mayFollow_of_mem hmem
  exact hfollows

end Chronological

/-! ### The committed load -/

/-- The entries that a decision holds according to the records: committed and not released. -/
def Loaded (records : List JournalRecord) (d : AdmissionDecisionId) (es : List LedgerEntry) :
    Prop :=
  ∃ prepare record, Committed records prepare record ∧ prepare.decision = d ∧
    d ∉ releasedIn records ∧ prepare.entries = es

theorem loaded_concat (hreleased : record.released? = none)
    (hcommit : ∀ decision, record ≠ .admissionCommit decision) :
    Loaded (records ++ [record]) d es ↔ Loaded records d es := by
  have hsame : releasedIn (records ++ [record]) = releasedIn records := by
    rw [releasedIn_concat, hreleased]
    exact List.append_nil _
  simp only [Loaded, committed_concat_iff, hsame, hcommit, false_and, and_false, or_false]

theorem loaded_concat_release {release : ReleaseRecord} :
    Loaded (records ++ [.ledgerRelease release]) d es ↔
      Loaded records d es ∧ d ≠ release.decision := by
  have hsame : releasedIn (records ++ [.ledgerRelease release]) =
      releasedIn records ++ [release.decision] := by
    rw [releasedIn_concat]
    rfl
  simp only [Loaded, committed_concat_iff, reduceCtorEq, hsame, false_and, and_false, or_false,
    List.mem_append, List.mem_singleton, not_or]
  constructor
  · rintro ⟨prepare, record, hcommitted, hd, ⟨hfree, hne⟩, hes⟩
    exact ⟨⟨prepare, record, hcommitted, hd, hfree, hes⟩, hne⟩
  · rintro ⟨⟨prepare, record, hcommitted, hd, hfree, hes⟩, hne⟩
    exact ⟨prepare, record, hcommitted, hd, ⟨hfree, hne⟩, hes⟩

theorem loaded_concat_commit {record : DecisionRecord}
    (hprepare : [.admissionPrepare prepare] <:+ records)
    (hdecision : prepare.decision = record.decision)
    (hfree : prepare.decision ∉ releasedIn records) :
    Loaded (records ++ [.admissionCommit record]) d es ↔
      Loaded records d es ∨ prepare.decision = d ∧ prepare.entries = es := by
  have hsame : releasedIn (records ++ [.admissionCommit record]) = releasedIn records := by
    rw [releasedIn_concat]
    exact List.append_nil _
  simp only [Loaded, committed_concat_iff, hsame]
  constructor
  · rintro ⟨prepare', record', hcommitted | ⟨-, -, hprepare'⟩, hd, hfree', hes⟩
    · exact Or.inl ⟨prepare', record', hcommitted, hd, hfree', hes⟩
    · -- the last record is the intent of one decision only
      obtain ⟨t, rfl⟩ := hprepare
      obtain heq := singleton_suffix_concat_iff.mp hprepare'
      obtain rfl := JournalRecord.admissionPrepare.inj heq
      exact Or.inr ⟨hd, hes⟩
  · rintro (⟨prepare', record', hcommitted, hd, hfree', hes⟩ | ⟨rfl, rfl⟩)
    · exact ⟨prepare', record', Or.inl hcommitted, hd, hfree', hes⟩
    · exact ⟨prepare, record, Or.inr ⟨hdecision, rfl, hprepare⟩, rfl, hfree, rfl⟩

theorem Loaded.decided (h : Loaded records d es) : d ∈ decidedIn records := by
  obtain ⟨prepare, record, hcommitted, rfl, -⟩ := h
  rw [hcommitted.1]
  exact List.mem_map_of_mem hcommitted.mem.2

/-- Revalidation flags aside, the ledger holds exactly the load of the records. -/
def Mirrors (ledger : AdmittedLoadLedger) (records : List JournalRecord) : Prop :=
  ∀ (d : AdmissionDecisionId) es,
    ledger.clearRevalidationFlags.byDecision[d]? = some es ↔ Loaded records d es

namespace Mirrors

variable {ledger ledger' : AdmittedLoadLedger}

theorem congr (h : Mirrors ledger records)
    (hledger : ledger'.clearRevalidationFlags.byDecision =
      ledger.clearRevalidationFlags.byDecision)
    (hloaded : ∀ d es, Loaded records' d es ↔ Loaded records d es) : Mirrors ledger' records' := by
  intro d es
  rw [hledger, hloaded]
  exact h d es

theorem decided_of_holds (h : Mirrors ledger records) (hheld : ledger.holds d = true) :
    d ∈ decidedIn records := by
  have hcleared : ledger.clearRevalidationFlags.holds d = true :=
    (holds_setFlags ledger false d).trans hheld
  obtain ⟨es, hes⟩ := holds_eq_true_iff.mp hcleared
  exact ((h d es).mp hes).decided

theorem byDecision_eq (h : Mirrors ledger records) (h' : Mirrors ledger' records) :
    ledger.markAllRequiringRevalidation.byDecision =
      ledger'.markAllRequiringRevalidation.byDecision := by
  refine Std.ExtTreeMap.ext_getElem? fun d => ?_
  have hcleared : ledger.clearRevalidationFlags.byDecision[d]? =
      ledger'.clearRevalidationFlags.byDecision[d]? :=
    Option.ext fun es => (h d es).trans (h' d es).symm
  have hmarked := congrArg (Option.map (List.map fun e : LedgerEntry =>
    { e with requiresRevalidation := true })) hcleared
  simp only [AdmittedLoadLedger.clearRevalidationFlags,
    getElem?_byDecision_setFlags, Option.map_map, Function.comp_def,
    List.map_map] at hmarked
  simpa only [AdmittedLoadLedger.markAllRequiringRevalidation,
    getElem?_byDecision_setFlags] using hmarked

end Mirrors

/-! ### Recovery -/

/-- A recovery restores the intents in front of a commit that was not released. -/
theorem Chronological.mem_livePrepares_iff (h : Chronological records) {state : ReplayState}
    (hsourced : state.Sourced records) (hcomplete : state.Complete records) :
    prepare ∈ state.livePrepares ↔ prepare.decision ∉ releasedIn records ∧
      ∃ record, Committed records prepare record := by
  rw [ReplayState.mem_livePrepares_iff hsourced, hcomplete.released]
  have hunique : ∀ record ∈ decisionsIn records, ∀ record' ∈ decisionsIn records,
      record.decision = record'.decision → record = record' := by
    intro record hrecord record' hrecord'
    exact List.inj_on_of_nodup_map h.nodup_decidedIn.1 hrecord hrecord'
  constructor
  · rintro ⟨hget, hfree, -⟩
    refine ⟨hfree, ?_⟩
    obtain ⟨-, -, record, hmem, hdecision⟩ := hsourced.committed _ prepare hget
    obtain ⟨-, prepare', hcommitted⟩ := h.committed_of_mem hmem
    have hget' := hcomplete.committed prepare' record hcommitted
    rw [hcommitted.1, hdecision, hget] at hget'
    exact ⟨record, Option.some.inj hget' ▸ hcommitted⟩
  · rintro ⟨hfree, record, hcommitted⟩
    refine ⟨hcomplete.committed prepare record hcommitted, hfree, ?_⟩
    obtain ⟨-, hdecided⟩ := hcommitted.mem
    obtain ⟨found, hfound⟩ := hcomplete.recorded record hdecided
    rw [← hcommitted.1] at hfound
    obtain ⟨original, hmem, hid, hrestores, hmarked⟩ := hcomplete.marked _ found hfound
    obtain rfl := hunique original hmem record hdecided (hid.trans hcommitted.1)
    have hcommit : .admissionCommit original ∈ records := hcommitted.2.subset (by simp)
    have hforce := (h.committed_of_mem hcommit).1
    refine ⟨found, hfound, ?_, ?_⟩
    · rw [hrestores]
      exact hforce.1
    · rcases hmarked with ⟨hstate, -⟩ | ⟨revocation, hrevocation, hsame, hstate, -⟩
      · rw [hstate]
        exact hforce.2
      · rw [hstate, ← not_or]
        intro hover
        have hreleased := h.released_of_revocation hrevocation hover
        rw [hsame, ← hcommitted.1] at hreleased
        exact hfree hreleased

theorem map_entries_unflagged (prepare : PrepareRecord) :
    (prepare.entries.map fun e => { e with requiresRevalidation := false }) = prepare.entries := by
  simp [PrepareRecord.entries, AdmittedLoadLedger.newEntries, Function.comp_def]

namespace EngineCore

variable {config : EngineConfig} {journal : Journal}

/-- A recovery restores exactly the load that the journal commits to, and flags it. -/
theorem getElem?_byDecision_boot (hstatus : (boot config journal).1.status = none)
    (h : Chronological journal.records) :
    (boot config journal).2.ledger.byDecision[d]? = some es ↔
      ∃ es', Loaded journal.records d es' ∧
        (es'.map fun e => { e with requiresRevalidation := true }) = es := by
  obtain ⟨hnodup, hzero⟩ := h.nodup_decidedIn
  obtain ⟨state, ledger, hsourced, hcomplete, -, -, -, -, hledger, hheld⟩ :=
    restored_boot hstatus hnodup hzero
  rw [hledger, AdmittedLoadLedger.markAllRequiringRevalidation,
    getElem?_byDecision_setFlags, Option.map_eq_some_iff]
  simp only [hheld, h.mem_livePrepares_iff hsourced hcomplete]
  constructor
  · rintro ⟨_, ⟨prepare, ⟨hfree, record, hcommitted⟩, rfl, rfl⟩, rfl⟩
    exact ⟨_, ⟨prepare, record, hcommitted, rfl, hfree, rfl⟩, rfl⟩
  · rintro ⟨_, ⟨prepare, record, hcommitted, rfl, hfree, rfl⟩, rfl⟩
    exact ⟨_, ⟨prepare, ⟨hfree, record, hcommitted⟩, rfl, rfl⟩, rfl⟩

theorem mirrors_boot (hstatus : (boot config journal).1.status = none)
    (h : Chronological journal.records) :
    Mirrors (boot config journal).2.ledger journal.records := by
  intro d es
  rw [AdmittedLoadLedger.clearRevalidationFlags, getElem?_byDecision_setFlags,
    Option.map_eq_some_iff]
  simp only [getElem?_byDecision_boot hstatus h]
  constructor
  · rintro ⟨_, ⟨_, ⟨prepare, record, hcommitted, rfl, hfree, rfl⟩, rfl⟩, rfl⟩
    refine ⟨prepare, record, hcommitted, rfl, hfree, ?_⟩
    rw [List.map_map]
    exact (map_entries_unflagged prepare).symm
  · rintro ⟨prepare, record, hcommitted, rfl, hfree, rfl⟩
    refine ⟨_, ⟨_, ⟨prepare, record, hcommitted, rfl, hfree, rfl⟩, rfl⟩, ?_⟩
    rw [List.map_map]
    exact map_entries_unflagged prepare

theorem wellFormed_boot (hstatus : (boot config journal).1.status = none)
    (h : Chronological journal.records) : (boot config journal).2.ledger.WellFormed := by
  obtain ⟨opened, state, ledger, epoch, journal', -, hreplay, hrestore, -, -, heq⟩ :=
    boot_eq_recoveredCore hstatus
  have hsourced := ReplayState.sourced_of_replayFrames hreplay
  rw [heq]
  refine (wellFormed_restoreLedger (fun prepare hprepare => ?_) .empty hrestore).setFlags true
  exact h.nodup_amounts (hsourced.of_mem_livePrepares hprepare).1

end EngineCore

end AdmissionFabric
