import AdmissionFabric.Engine.JournalEffects

/-!
# A fenced incarnation stays fenced

Session nonces start at one in every incarnation, so what keeps a claimant of an earlier
incarnation out is the epoch alone. The epoch of an incarnation is durable once its boot record
is, and a restart resumes above every boot record that it finds.

`begin_new_incarnation` advances the epoch in memory before it writes the boot record, and keeps
the new epoch when the write fails. Sessions registered after such a failure carry an epoch that
the next restart uses again.
-/

namespace AdmissionFabric

open EngineCore (SessionGrant)

variable {journal : Journal} {incarnation : CoordinatorIncarnation}

/-- A claim that presents a session grant from outside the process. -/
structure BuiltFrom (claim : ClaimContext) (grant : SessionGrant) : Prop where
  origin : claim.origin ≠ .inProcess
  session : claim.session = grant.session
  incarnation : claim.incarnation = grant.incarnation
  epoch : claim.epoch = grant.epoch
  publisher : claim.publisher = grant.publisher
  boot : claim.boot = grant.boot

/-- A coordinator with the session grants of its current incarnation and of the earlier ones. -/
structure Issuer where
  core : EngineCore
  past : List SessionGrant := []
  issued : List SessionGrant := []

/-- The session grant that a call returns. -/
def issuedGrant : Answer → List SessionGrant
  | .session (.ok grant) => [grant]
  | _ => []

namespace Issuer

/-- A restart and the beginning of an incarnation end the current one. -/
def follow (issuer : Issuer) : Event → Issuer
  | .restart config surviving disk =>
    { core := (issuer.core.restart config surviving disk).2, past := issuer.past ++ issuer.issued }
  | .call call =>
    let result := (issuer.core.onDisk call.disk).perform call.operation
    if call.operation.beginsIncarnation then
      { core := result.2, past := issuer.past ++ issuer.issued }
    else
      { core := result.2, past := issuer.past, issued := issuer.issued ++ issuedGrant result.1 }

/-- Earlier claims are refused, and no earlier grant carries the epoch of a current one. -/
structure Fenced (issuer : Issuer) : Prop where
  refused : ∀ grant ∈ issuer.past, ∀ claim, BuiltFrom claim grant →
    ∃ refusal, issuer.core.checkFence claim = .error refusal
  distinct : ∀ grant ∈ issuer.past, ∀ grant' ∈ issuer.issued, grant.epoch ≠ grant'.epoch

/-- A new incarnation has an epoch left and writes its boot record; a restart succeeds and finds
the boot record of the incarnation that it ends. -/
def Recorded (issuer : Issuer) : Event → Prop
  | .restart config surviving disk =>
    (issuer.core.restart config surviving disk).1.status = none ∧
      ∃ journal ∈ issuer.core.journal,
        EngineCore.HasBoot (journal.cut surviving).records issuer.core.epoch
  | .call ⟨.beginNewIncarnation incarnation, disk⟩ =>
    issuer.core.epoch + 1 ≠ 0 ∧ ∃ journal ∈ (issuer.core.onDisk disk).journal,
      journal.nextOutcome = .synced ∧ journal.Accepts
        (.bootEpoch (EngineCore.makeBootRecord (issuer.core.epoch + 1) incarnation))
  | .call _ => True

/-- A coordinator that has just opened its journal. -/
def Starting (issuer : Issuer) : Prop :=
  issuer.past = [] ∧ issuer.issued = [] ∧ ∃ config journal,
    (EngineCore.boot config journal).1.status = none ∧
      issuer.core = (EngineCore.boot config journal).2

end Issuer

namespace EngineCore

/-! ### The boot record of the running incarnation -/

/-- The journal is in use and has the boot record of the current epoch. -/
def Booted (core : EngineCore) : Prop := core.Durable ∧ HasBoot core.records core.epoch

variable {core : EngineCore}

theorem Booted.write (h : core.Booted) {record : JournalRecord} {result : Except Status Unit}
    {journal : Option Journal}
    (hwrite : writeJournal core.journal core.journalReady record = (result, journal)) :
    ({ core with journal } : EngineCore).Booted := by
  obtain ⟨hdurable, hrecords⟩ := records_of_writeJournal h.1 hwrite
  refine ⟨hdurable, h.2.mono ?_⟩
  rcases hrecords with hrecords | ⟨-, hrecords⟩
  · exact hrecords ▸ List.subset_append_left _ _
  · exact hrecords ▸ List.Subset.refl _

theorem Booted.compact (h : core.Booted) : core.compactLocked.2.Booted := by
  obtain ⟨hdurable, hrecords⟩ := records_compactLocked h.1
  have hepoch : core.compactLocked.2.epoch = core.epoch := by rw [compactLocked_snd]
  refine ⟨hdurable, hepoch ▸ ?_⟩
  rcases hrecords with hrecords | hrecords
  · exact hrecords ▸ h.2
  · exact hrecords ▸ core.hasBoot_compactedRecords

theorem Booted.compactIfNeeded (h : core.Booted) : core.compactIfNeededLocked.2.Booted := by
  unfold compactIfNeededLocked
  split
  · exact h
  · split
    · exact h.compact
    · exact h

theorem Booted.of_stores {core' : EngineCore} (h : core.Booted)
    (hstores : core'.stores = core.stores) (hepoch : core'.epoch = core.epoch) :
    core'.Booted := by
  have hjournal : core'.journal = core.journal := congrArg Stores.journal hstores
  have hready : core'.journalReady = core.journalReady := congrArg Stores.journalReady hstores
  simpa only [Booted, Durable, records, hjournal, hready, hepoch] using h

theorem Booted.onDisk (h : core.Booted) (disk : List DiskOutcome) : (core.onDisk disk).Booted :=
  ⟨h.1.onDisk disk, by rw [records_onDisk]; exact h.2⟩

theorem transactional_booted : Transactional Booted where
  refusal core request claim reason evidence recordAttempt h := by
    generalize hcall : core.consumeIdentity.finishRefusal _ _ _ = outcome
    have hcore : core.consumeIdentity.Booted := h
    cases finishRefusal_effect hcall with
    | unwritten hwrite | settled hwrite => exact hcore.write hwrite
  grant core request claim grant _ h := by
    generalize hcall : core.consumeIdentity.finishAdmission _ _ _ = outcome
    have hcore : core.consumeIdentity.Booted := h
    cases finishAdmission_effect hcall with
    | unprepared hprepare | unreserved hprepare _ => exact hcore.write hprepare
    | uncommitted hprepare _ hcommit => exact (hcore.write hprepare).write hcommit
    | committed hprepare _ hcommit =>
      have hwritten := (hcore.write hprepare).write hcommit
      exact Booted.compactIfNeeded hwritten
  release core d reason explanation _ h := by
    generalize hcall : core.releaseDecisionLocked d reason .revoked explanation = outcome
    cases releaseDecisionLocked_effect hcall with
    | unheld _ => exact h
    | unwritten _ hwrite | stuck _ hwrite _ => exact h.write hwrite
    | unmarked _ hwrite _ hmark | released _ hwrite _ hmark => exact (h.write hwrite).write hmark
  mark _ _ _ _ _ h := h
  note core record _ h := h.write rfl
  clearFlags _ h := h
  steady _ _ hstores hannounced h := h.of_stores hstores (congrArg Announced.epoch hannounced)

theorem Durable.booted_writeBoot (h : core.Durable) (hok : core.writeBoot.1 = .ok ()) :
    core.writeBoot.2.Booted := by
  have hwrite : writeJournal core.journal core.journalReady
      (.bootEpoch (makeBootRecord core.epoch core.incarnation)) = (_, _) := rfl
  obtain ⟨hdurable, hrecords⟩ := records_of_writeJournal h hwrite
  refine ⟨hdurable, makeBootRecord core.epoch core.incarnation, ?_, rfl⟩
  rcases hrecords with hrecords | ⟨⟨status, hfailed⟩, -⟩
  · exact hrecords ▸ List.mem_append_right _ (List.mem_singleton.mpr rfl)
  · exact absurd (hok.symm.trans hfailed) (by simp)

theorem booted_beginNewIncarnation (hdurable : core.Durable) (hepoch : core.epoch + 1 ≠ 0)
    (hjournal : core.journal = some journal) (hsynced : journal.nextOutcome = .synced)
    (haccepts : journal.Accepts (.bootEpoch (makeBootRecord (core.epoch + 1) incarnation))) :
    (core.beginNewIncarnation incarnation).2.epoch = core.epoch + 1 ∧
      (core.beginNewIncarnation incarnation).2.Booted := by
  obtain ⟨hopen, hlength⟩ := haccepts
  rw [beginNewIncarnation, if_neg hepoch]
  refine ⟨rfl, Durable.booted_writeBoot hdurable ?_⟩
  have hready := hdurable.2
  simp only [writeBoot, writeRecord, writeJournal, hjournal, hready, ↓reduceIte, Journal.append,
    hopen, Bool.not_true, Bool.false_eq_true, gt_iff_lt, Authority.withEpoch,
    Nat.not_lt.mpr hlength, hsynced]

end EngineCore

namespace Issuer

open EngineCore (Booted)
open TransitionSystem

variable {disk : List DiskOutcome} {config : EngineConfig} {grant : SessionGrant}

/-! ### Runs -/

/-- The journal has the current boot record; grants carry the epochs of their incarnations. -/
structure Invariant (issuer : Issuer) : Prop where
  booted : issuer.core.Booted
  past : ∀ grant ∈ issuer.past, grant.epoch < issuer.core.epoch
  issued : ∀ grant ∈ issuer.issued, grant.epoch = issuer.core.epoch

theorem Invariant.lt_of_lt {issuer : Issuer} (h : issuer.Invariant) {epoch : FabricEpoch}
    (hlt : issuer.core.epoch < epoch) :
    ∀ grant ∈ issuer.past ++ issuer.issued, grant.epoch < epoch := by
  intro grant hgrant
  rcases List.mem_append.mp hgrant with hpast | hissued
  · exact UInt64.lt_trans (h.past grant hpast) hlt
  · exact h.issued grant hissued ▸ hlt

theorem booted_boot (h : (EngineCore.boot config journal).1.status = none) :
    (EngineCore.boot config journal).2.Booted := by
  obtain ⟨hdurable, hrecords⟩ := EngineCore.records_boot h
  refine ⟨hdurable, EngineCore.makeBootRecord _ config.incarnation, ?_, rfl⟩
  exact hrecords ▸ List.mem_append_right _ (List.mem_singleton.mpr rfl)

theorem Starting.invariant {issuer : Issuer} (h : issuer.Starting) : issuer.Invariant := by
  obtain ⟨hpast, hissued, config, journal, hstatus, hcore⟩ := h
  exact ⟨hcore ▸ booted_boot hstatus, by simp [hpast], by simp [hissued]⟩

theorem epoch_registerSession {core : EngineCore} {publisher : PublisherId} {boot : BootId}
    (h : (core.registerSession publisher boot).1 = .ok grant) : grant.epoch = core.epoch := by
  unfold EngineCore.registerSession at h
  split_ifs at h
  cases h
  rfl

theorem epoch_of_issuedGrant {core : EngineCore} {operation : Operation}
    (h : grant ∈ issuedGrant (core.perform operation).1) : grant.epoch = core.epoch := by
  cases operation with
  | registerSession publisher boot =>
    change grant ∈ issuedGrant (.session (core.registerSession publisher boot).1) at h
    rcases hresult : (core.registerSession publisher boot).1 with status | issued
    · simp [hresult, issuedGrant] at h
    · rw [hresult, issuedGrant, List.mem_singleton] at h
      exact epoch_registerSession (h ▸ hresult)
  | _ => cases h

theorem Invariant.restart {issuer : Issuer} (h : issuer.Invariant) {surviving : Nat}
    (hguard : issuer.Recorded (.restart config surviving disk)) :
    (issuer.follow (.restart config surviving disk)).Invariant := by
  obtain ⟨hstatus, journal, hjournal, hboot⟩ := hguard
  have hrestart : issuer.core.restart config surviving disk =
      EngineCore.boot config { journal.cut surviving with disk } := by
    rw [EngineCore.restart, Option.mem_def.mp hjournal]
  rw [hrestart] at hstatus
  rw [Issuer.follow, hrestart]
  exact ⟨booted_boot hstatus,
    h.lt_of_lt (EngineCore.HasBoot.lt_epoch_boot hboot hstatus), by simp⟩

theorem Invariant.begin {issuer : Issuer} (h : issuer.Invariant)
    (hguard : issuer.Recorded (.call ⟨.beginNewIncarnation incarnation, disk⟩)) :
    (issuer.follow (.call ⟨.beginNewIncarnation incarnation, disk⟩)).Invariant := by
  obtain ⟨hepoch, journal, hjournal, hsynced, haccepts⟩ := hguard
  obtain ⟨hnext, hbooted⟩ := EngineCore.booted_beginNewIncarnation (h.booted.1.onDisk disk) hepoch
    hjournal hsynced haccepts
  refine ⟨hbooted, h.lt_of_lt ?_, by simp [Issuer.follow, Operation.beginsIncarnation]⟩
  exact lt_of_lt_of_eq (lt_add_one_of_ne_zero hepoch) hnext.symm

theorem Invariant.call {issuer : Issuer} (h : issuer.Invariant) {call : Call}
    (hop : ∀ incarnation, call.operation ≠ .beginNewIncarnation incarnation) :
    (issuer.follow (.call call)).Invariant := by
  have hfollow : issuer.follow (.call call) =
      { core := ((issuer.core.onDisk call.disk).perform call.operation).2, past := issuer.past,
        issued := issuer.issued ++
          issuedGrant ((issuer.core.onDisk call.disk).perform call.operation).1 } := by
    obtain ⟨operation, disk⟩ := call
    cases operation <;> first | rfl | exact absurd rfl (hop _)
  have hepoch := (issuer.core.onDisk call.disk).epoch_perform hop
  have hdisk := h.booted.onDisk call.disk
  have hbooted := EngineCore.transactional_booted.perform_of_incarnation
    (fun _ _ hstores hepoch _ hbooted => hbooted.of_stores hstores hepoch) hdisk
    (fun _ _ => trivial)
    (fun request claim _ => EngineCore.transactional_booted.admitLocked hdisk request claim)
    (fun _ => hdisk.compact) hop
  rw [hfollow]
  refine ⟨hbooted, hepoch ▸ h.past, fun grant hgrant => hepoch ▸ ?_⟩
  rcases List.mem_append.mp hgrant with hgrant | hgrant
  · exact h.issued grant hgrant
  · exact epoch_of_issuedGrant hgrant

theorem Invariant.follow {issuer : Issuer} (h : issuer.Invariant) {event : Event}
    (hguard : issuer.Recorded event) : (issuer.follow event).Invariant := by
  match event with
  | .restart config surviving disk => exact h.restart hguard
  | .call ⟨operation, disk⟩ =>
    cases operation with
    | beginNewIncarnation incarnation => exact h.begin hguard
    | _ => exact h.call (by simp)

theorem refused_of_lt {core : EngineCore} {claim : ClaimContext}
    (horigin : claim.origin ≠ .inProcess) (hlt : claim.epoch < core.epoch) :
    ∃ refusal, core.checkFence claim = .error refusal := by
  simp only [EngineCore.checkFence, horigin, false_and, ↓reduceIte]
  by_cases hzero : claim.epoch = 0
  · exact ⟨_, by rw [rejectIf, if_pos hzero]; rfl⟩
  · exact ⟨_, by rw [rejectIf, if_neg hzero, rejectIf, if_pos hlt]; rfl⟩

theorem Invariant.fenced {issuer : Issuer} (h : issuer.Invariant) : issuer.Fenced where
  refused grant hgrant _ hclaim :=
    refused_of_lt hclaim.origin (hclaim.epoch ▸ h.past grant hgrant)
  distinct grant hgrant grant' hgrant' heq :=
    UInt64.ne_of_lt (h.past grant hgrant) (heq.trans (h.issued grant' hgrant'))

/-- In every run whose boot records are written and survive the crashes, claims of earlier
incarnations are refused and incarnations that issue session grants have different epochs. -/
theorem fenced_of_reachable {issuer : Issuer}
    (h : Reachable Starting Issuer.follow Recorded issuer) : issuer.Fenced :=
  (h.invariant (fun _ => Starting.invariant) (fun _ _ h => h.follow)).fenced

section Examples

/-- Register, begin a new incarnation on the given disk, register; restart and register. -/
def reissuedRun (disk : List DiskOutcome) : List Event :=
  [.call ⟨.registerSession 5 9, []⟩, .call ⟨.beginNewIncarnation 0, disk⟩,
    .call ⟨.registerSession 5 9, []⟩, .restart { epoch := 0 } 1000 [],
    .call ⟨.registerSession 5 9, []⟩]

/-- A new engine, and nothing issued. -/
def startedIssuer : Issuer := { core := (EngineCore.boot { epoch := 0 } {}).2 }

theorem starting_startedIssuer : startedIssuer.Starting :=
  ⟨rfl, rfl, { epoch := 0 }, {}, by decide +kernel, rfl⟩

instance (issuer : Issuer) (event : Event) : Decidable (issuer.Recorded event) := by
  rcases event with ⟨operation, disk⟩ | ⟨config, surviving, disk⟩
  · induction operation using Operation.casesOn with
    | beginNewIncarnation incarnation => exact inferInstanceAs (Decidable (_ ∧ _))
    | _ => exact instDecidableTrue
  · exact inferInstanceAs (Decidable (_ ∧ _))

/-- Three incarnations, begun by a recovery, by a call and by a restart. -/
theorem fenced_reissuedRun : (run Issuer.follow startedIssuer (reissuedRun [])).Fenced := by
  have hallowed : Allowed Issuer.follow Recorded startedIssuer (reissuedRun []) := by
    decide +kernel
  have hstart : Reachable Starting Issuer.follow Recorded startedIssuer :=
    .init starting_startedIssuer
  exact fenced_of_reachable (hstart.run hallowed)

/-- The grant of the second incarnation. -/
def secondGrant : SessionGrant :=
  { session := 1, incarnation := 0, epoch := 2, publisher := 5, boot := 9 }

/-- When the boot record of the second incarnation is lost, the third one runs under the same
epoch, issues the same grant, and a claim of the second one passes. -/
theorem not_fenced_reissuedRun :
    secondGrant ∈ (run Issuer.follow startedIssuer (reissuedRun [.lost])).past ∧
      secondGrant ∈ (run Issuer.follow startedIssuer (reissuedRun [.lost])).issued ∧
      (run Issuer.follow startedIssuer (reissuedRun [.lost])).core.checkFence
        { origin := .claimant, session := 1, epoch := 2, publisher := 5, boot := 9 } = .ok () ∧
      ¬ (run Issuer.follow startedIssuer (reissuedRun [.lost])).Fenced := by
  have hpast : secondGrant ∈ (run Issuer.follow startedIssuer (reissuedRun [.lost])).past := by
    decide +kernel
  have hissued : secondGrant ∈
      (run Issuer.follow startedIssuer (reissuedRun [.lost])).issued := by
    decide +kernel
  exact ⟨hpast, hissued, by decide +kernel, fun h => h.distinct _ hpast _ hissued rfl⟩

end Examples

end Issuer

end AdmissionFabric
