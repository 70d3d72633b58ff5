import AdmissionFabric.Engine.Stamps
import AdmissionFabric.Guarantees.FailedReleases

/-!
# What a revalidation certifies

A revalidation that answers valid has compared the grant with everything that is published. The
QoS and priority catalogs are compared only if they are published: unlike the other authorities,
a missing catalog passes. Grants of the running epoch were made under both catalogs, and catalogs
are never withdrawn, so this matters only for a restored grant whose epoch is in use again. That
happens when a restart does not find the boot record of the epoch that it ends.

A grant that was revoked holds nothing. Its identity is not issued again and its load does not
come back, except after a restart that has lost its frames.
-/

namespace AdmissionFabric

open TransitionSystem

namespace EngineCore

variable {config : EngineConfig} {journal : Journal} {event : Event} {begun : RevalidationResult}
    {claim : ClaimContext} {result : RevalidationResult} {core core' : EngineCore}
    {d : AdmissionDecisionId} {record : DecisionRecord}

/-! ### The answers -/

/-- Everything that a valid grant rests on. -/
structure Upheld (core : EngineCore) (d : AdmissionDecisionId) (record : DecisionRecord) :
    Prop where
  admitting : record.outcome.isAdmitting = true
  held : core.ledger.holds d = true
  epoch_eq : record.epoch = core.epoch
  incarnation_eq : record.incarnation = core.incarnation
  reconciled : ∀ e ∈ core.ledger.entriesOf d, e.requiresRevalidation = false
  capacity : core.capacity.map (·.generation) = some record.boundCapacityGeneration
  reservations : core.reservations.map (·.generation) = some record.boundReservationGeneration
  policy : core.policy.map (·.generation) = some record.boundPolicyGeneration
  qos : core.qos.map (·.generation) = some record.boundQosGeneration
  priorities : core.priorities.map (·.generation) = some record.boundPriorityGeneration
  paths : ∀ catalog ∈ core.paths, catalog.pathAuthorityGeneration = record.boundPathGeneration
  path : record.path ≠ 0 → ∃ fact, core.findPath record.path = some fact ∧ fact.state = .up
  resources : ∀ e ∈ core.ledger.entriesOf d, core.toAuthority.Fits core.ledger e

/-- The ways a revalidation is answered, and what it leaves. -/
inductive Revalidated (core : EngineCore) (d : AdmissionDecisionId) (record : DecisionRecord) :
    RevalidationState → EngineCore → Prop
  | alreadyOver (h : record.state = .revoked ∨ record.state = .expired) :
      Revalidated core d record record.state core
  | revoked (core' : EngineCore) : Revalidated core d record .revoked core'
  | ambiguous (h : core.revalidationVerdict d record = .ambiguous) :
      Revalidated core d record .ambiguous core
  | valid (h : core.revalidationVerdict d record = .keep false) :
      Revalidated core d record .valid core
  | invalidated {core' : EngineCore} (h : core.revalidationVerdict d record = .keep true)
      (hledger : core'.ledger = core.ledger) : Revalidated core d record .invalidated core'

theorem state_of_releaseFor (h : core.releaseFor begun = (.ok result, core')) :
    result.state = begun.state := by
  unfold releaseFor at h
  rcases hrelease : core.releaseDecisionLocked begun.decision begun.reason begun.state
    begun.explanation with ⟨status | explanation, released⟩
  · rw [hrelease] at h
    cases h
  · rw [hrelease] at h
    obtain ⟨hresult, -⟩ := Prod.mk.inj h
    rw [← Except.ok.inj hresult]

theorem of_markInvalidated (h : core.markInvalidated begun = (.ok result, core')) :
    result = begun ∧ core'.ledger = core.ledger := by
  unfold markInvalidated at h
  rcases hwrite : writeJournal core.journal core.journalReady (.revocation
    (core.revocationOf begun.decision begun.reason begun.state)) with ⟨status | ⟨⟩, journal⟩
  · rw [writeRecord_eq _ _ hwrite] at h
    cases h
  · rw [writeRecord_eq _ _ hwrite] at h
    obtain ⟨hresult, rfl⟩ := Prod.mk.inj h
    exact ⟨(Except.ok.inj hresult).symm, rfl⟩

theorem revalidated_of_revalidateLocked (h : core.revalidateLocked d claim = (.ok result, core')) :
    ∃ record, core.history.find d = some record ∧ record.outcome.isAdmitting = true ∧
      core.Revalidated d record result.state core' := by
  unfold revalidateLocked at h
  cases hfind : core.history.find d with
  | none => simp [hfind] at h
  | some record =>
    cases hadmitting : record.outcome.isAdmitting with
    | false => simp [hfind, hadmitting] at h
    | true =>
      simp only [hfind, hadmitting, Bool.not_true, Bool.false_eq_true, ↓reduceIte] at h
      refine ⟨record, rfl, hadmitting, ?_⟩
      cases hverdict : core.revalidationVerdict d record with
      | alreadyReleased =>
        simp only [hverdict] at h
        obtain ⟨hresult, rfl⟩ := Prod.mk.inj h
        obtain rfl := Except.ok.inj hresult
        refine .alreadyOver (by_contra fun hlive => ?_)
        rw [revalidationVerdict, if_neg hlive] at hverdict
        grind
      | unheld =>
        simp only [hverdict] at h
        obtain ⟨hresult, rfl⟩ := Prod.mk.inj h
        obtain rfl := Except.ok.inj hresult
        exact .revoked _
      | revoke reason note =>
        simp only [hverdict] at h
        exact state_of_releaseFor h ▸ .revoked core'
      | ambiguous =>
        simp only [hverdict] at h
        obtain ⟨hresult, rfl⟩ := Prod.mk.inj h
        obtain rfl := Except.ok.inj hresult
        exact .ambiguous hverdict
      | keep invalidated =>
        cases invalidated with
        | false =>
          simp only [hverdict] at h
          obtain ⟨hresult, rfl⟩ := Prod.mk.inj h
          obtain rfl := Except.ok.inj hresult
          exact .valid hverdict
        | true =>
          simp only [hverdict] at h
          obtain ⟨rfl, hledger⟩ := of_markInvalidated h
          exact .invalidated hverdict hledger

theorem running_of_verdict {verdict : RevalidationVerdict}
    (h : core.revalidationVerdict d record = verdict)
    (hkept : verdict = .ambiguous ∨ ∃ invalidated, verdict = .keep invalidated) :
    core.ledger.holds d = true ∧ record.epoch = core.epoch ∧
      record.incarnation = core.incarnation := by
  unfold revalidationVerdict at h
  grind

theorem justified_of_keep {invalidated : Bool}
    (h : core.revalidationVerdict d record = .keep invalidated) :
    (∀ e ∈ core.ledger.entriesOf d, e.requiresRevalidation = false) ∧
      core.Justified d record ∧ core.invalidates record = invalidated := by
  unfold revalidationVerdict at h
  split_ifs at h with hover hheld hforeign hflagged
  split at h
  · cases h
  · rename_i hgrant
    refine ⟨fun e he => ?_, checkGrant_eq_ok_iff.mp hgrant, RevalidationVerdict.keep.inj h⟩
    by_contra hflag
    exact hflagged (List.any_eq_true.mpr ⟨e, he, Bool.of_not_eq_false hflag⟩)

theorem current_of_not_advanced {bound : Generation} {current : Option Generation}
    (h : Authority.advanced bound current = false) (hsome : current.isSome = true) :
    current = some bound := by
  obtain ⟨generation, rfl⟩ := Option.isSome_iff_exists.mp hsome
  simp only [Authority.advanced, ne_eq, decide_not, Bool.not_eq_false', decide_eq_true_eq] at h
  rw [h]

theorem upheld_of_valid (hadmitting : record.outcome.isAdmitting = true)
    (h : core.revalidationVerdict d record = .keep false)
    (hcatalogs : core.qos.isSome = true ∧ core.priorities.isSome = true) :
    core.Upheld d record := by
  obtain ⟨hheld, hepoch, hincarnation⟩ := running_of_verdict h (Or.inr ⟨false, rfl⟩)
  obtain ⟨hclear, ⟨hcapacity, ⟨hreservations, hpolicy⟩, hpath, hfits⟩, hsame⟩ := justified_of_keep h
  simp only [Authority.invalidates, Bool.or_eq_false_iff] at hsame
  obtain ⟨⟨⟨⟨⟨hc, hp⟩, hq⟩, hpr⟩, hr⟩, hpa⟩ := hsame
  refine
    { admitting := hadmitting, held := hheld, epoch_eq := hepoch, incarnation_eq := hincarnation
      reconciled := hclear, path := hpath, resources := hfits
      capacity := current_of_not_advanced hc ?_
      reservations := current_of_not_advanced hr ?_
      policy := current_of_not_advanced hp ?_
      qos := current_of_not_advanced hq ?_
      priorities := current_of_not_advanced hpr ?_
      paths := fun catalog hcatalog => ?_ }
  · rwa [Option.isSome_map, Option.isSome_iff_ne_none]
  · rwa [Option.isSome_map, Option.isSome_iff_ne_none]
  · rwa [Option.isSome_map, Option.isSome_iff_ne_none]
  · rw [Option.isSome_map, hcatalogs.1]
  · rw [Option.isSome_map, hcatalogs.2]
  · rw [Option.mem_def.mp hcatalog] at hpa
    exact Option.some.inj (current_of_not_advanced hpa rfl)

/-! ### Runs -/

/-- The books are filed and stamped, and current grants were made under both class catalogs. -/
structure Stamped (core : EngineCore) : Prop where
  filed : core.Filed
  records : core.StampedRecords core.epoch
  journal : core.StampedJournal core.epoch
  catalogs : ∀ d record, core.history.find d = some record →
    record.outcome.isAdmitting = true → record.epoch = core.epoch →
      core.qos.isSome = true ∧ core.priorities.isSome = true

theorem catalogs_perform (operation : Operation) :
    (core.qos.isSome = true → (core.perform operation).2.qos.isSome = true) ∧
      (core.priorities.isSome = true → (core.perform operation).2.priorities.isSome = true) := by
  have hmoves := core.moves_perform operation
  have hqos : (core.perform operation).2.qos = (core.perform operation).2.announced.qos := rfl
  have hpriorities : (core.perform operation).2.priorities =
      (core.perform operation).2.announced.priorities := rfl
  rw [hqos, hpriorities]
  cases operation <;> grind [Announced.Moves, announced]

theorem Stamped.onDisk (h : core.Stamped) (disk : List DiskOutcome) : (core.onDisk disk).Stamped :=
  ⟨⟨h.filed.next_pos, h.filed.keyed, h.filed.below, h.filed.held⟩, h.records, fun frame hframe =>
    h.journal frame (core.records_onDisk disk ▸ hframe), h.catalogs⟩

theorem Stamped.perform (h : core.Stamped) (operation : Operation) :
    (core.perform operation).2.Stamped := by
  have hcourse := core.course_perform h.filed.next_pos operation
  have hjournal := h.journal.perform h.records (UInt64.le_refl _) h.filed.next_pos operation
  refine ⟨h.filed.course hcourse, (h.records.course (UInt64.le_refl _) hcourse).mono
    hcourse.epoch_le, fun frame hframe => (hjournal frame hframe).mono hcourse.epoch_le,
    fun d record' hfind hadmitting hepoch =>
      (?_ : core.qos.isSome = true ∧ core.priorities.isSome = true).imp
        (catalogs_perform operation).1 (catalogs_perform operation).2⟩
  rcases hcourse.recorded d record' hfind with ⟨record, hold, hcopy⟩ | hissues
  · -- a record of the new epoch is one of the old epoch, which is not smaller
    refine h.catalogs d record hold (hcopy.outcome_eq ▸ hadmitting) ?_
    refine UInt64.le_antisymm (h.records d record hold).1 ?_
    rw [← hcopy.epoch_eq, hepoch]
    exact hcourse.epoch_le
  · exact hissues.catalogs hadmitting

theorem stamped_boot {epoch : FabricEpoch} (hstatus : (boot config journal).1.status = none)
    (hframes : ∀ frame ∈ journal.records, StampedFrame epoch frame)
    (habove : epoch < (boot config journal).2.epoch) :
    (boot config journal).2.Stamped ∧ ∀ d record,
      (boot config journal).2.history.find d = some record →
        record.epoch < (boot config journal).2.epoch := by
  obtain ⟨-, hrecords⟩ := records_boot hstatus
  have hold : ∀ d record, (boot config journal).2.history.find d = some record →
      record.epoch ≤ epoch ∧ record.state ≠ .expired := by
    obtain ⟨opened, state, ledger, next, journal', -, hreplay, -, -, -, heq⟩ :=
      boot_eq_recoveredCore hstatus
    intro d record hfind
    rw [heq] at hfind
    have hret := DecisionHistory.trimHistory_retires state.history ledger
    exact stamped_of_replayFrames hreplay hframes (hret.find_of_find d record hfind)
  have hearlier : ∀ d record, (boot config journal).2.history.find d = some record →
      record.epoch < (boot config journal).2.epoch := fun d record hfind =>
    UInt64.lt_of_le_of_lt (hold d record hfind).1 habove
  refine ⟨⟨filed_boot hstatus, fun d record hfind => ?_, fun frame hframe => ?_,
    fun d record hfind _ hepoch => ?_⟩, hearlier⟩
  · exact ⟨UInt64.le_of_lt (hearlier d record hfind), (hold d record hfind).2⟩
  · rw [hrecords] at hframe
    rcases List.mem_append.mp hframe with hframe | hframe
    · exact (hframes frame hframe).mono (UInt64.le_of_lt habove)
    · rw [List.mem_singleton.mp hframe]
      trivial
  · exact absurd hepoch (UInt64.ne_of_lt (hearlier d record hfind))

theorem stamped_of_empty (hfiled : core.Filed) (hfind : ∀ d, core.history.find d = none)
    (hjournal : core.StampedJournal core.epoch) : core.Stamped :=
  ⟨hfiled, fun d record h => by simp [hfind] at h, hjournal, fun d record h => by
    simp [hfind] at h⟩

theorem stamped_fresh (config : EngineConfig) : (EngineCore.fresh config).Stamped :=
  stamped_of_empty (filed_fresh config)
    (fun d => by simp [fresh, DecisionHistory.find])
    fun _ hframe => (List.not_mem_nil hframe).elim

theorem Starting.stamped (h : core.Starting) : core.Stamped := by
  rcases h with ⟨config, rfl⟩ | ⟨config, options, disk, rfl⟩
  · exact stamped_fresh config
  · refine stamped_of_empty (filed_boot_new config options disk)
      (find_boot_new config options disk) fun frame hframe => ?_
    rcases records_boot_cases config { options, disk } with hrecords | ⟨boot, hrecords⟩
    · rw [hrecords] at hframe
      exact (List.not_mem_nil hframe).elim
    · rw [hrecords] at hframe
      rw [List.mem_singleton.mp hframe]
      trivial

/-- A restart succeeds and finds the boot record of the epoch that it ends. -/
def ResumesAbove (core : EngineCore) : Event → Prop
  | .call _ => True
  | .restart config surviving disk =>
    (core.restart config surviving disk).1.status = none ∧
      ∀ journal ∈ core.journal, HasBoot (journal.cut surviving).records core.epoch

/-- A restart finds a decision frame of the decision. -/
def Recalls (d : AdmissionDecisionId) (core : EngineCore) : Event → Prop
  | .call _ => True
  | .restart _ surviving _ =>
    ∃ journal ∈ core.journal, d ∈ decidedIn (journal.cut surviving).records

theorem Stamped.boot (h : core.Stamped) (hjournal : core.journal = some journal)
    {surviving : Nat} {disk : List DiskOutcome}
    (hstatus : (boot config { journal.cut surviving with disk }).1.status = none)
    (hboot : HasBoot (journal.cut surviving).records core.epoch) :
    (boot config { journal.cut surviving with disk }).2.Stamped ∧ ∀ d record,
      (boot config { journal.cut surviving with disk }).2.history.find d = some record →
        record.epoch < (boot config { journal.cut surviving with disk }).2.epoch := by
  have hrecords : core.records = journal.records := by
    rw [EngineCore.records, hjournal]
    rfl
  have hframes : ∀ frame ∈ (journal.cut surviving).records, StampedFrame core.epoch frame :=
    fun frame hframe => h.journal frame
      (hrecords ▸ (journal.records_cut_isPrefix surviving).subset hframe)
  have hfound : HasBoot ({ journal.cut surviving with disk } : Journal).records core.epoch := hboot
  exact stamped_boot hstatus hframes (hfound.lt_epoch_boot hstatus)

theorem Stamped.follow (h : core.Stamped) (hguard : core.ResumesAbove event) :
    (core.follow event).Stamped := by
  cases event with
  | call call => exact (h.onDisk call.disk).perform call.operation
  | restart config surviving disk =>
    obtain ⟨hstatus, hboot⟩ := hguard
    rw [EngineCore.follow]
    unfold restart at hstatus ⊢
    cases hjournal : core.journal with
    | none => exact stamped_fresh config
    | some journal =>
      rw [hjournal] at hstatus
      exact (h.boot hjournal hstatus (hboot journal hjournal)).1

theorem stamped_of_reachable (h : Reachable Starting follow ResumesAbove core) : core.Stamped :=
  h.invariant (fun _ => Starting.stamped) fun _ _ hstamped hguard => hstamped.follow hguard

/-! ### Revoked grants -/

/-- The decision was issued, and if it is held then for an earlier epoch. -/
structure Over (d : AdmissionDecisionId) (core : EngineCore) : Prop where
  issued : d < core.nextDecisionSequence
  earlier : ∀ record, core.history.find d = some record → core.ledger.holds d = true →
    record.epoch < core.epoch

theorem Over.course (h : core.Over d) (hcourse : core.Course core') : core'.Over d where
  issued := Nat.lt_of_lt_of_le h.issued hcourse.next_le
  earlier record' hfind hholds := by
    have hnew : ∀ {record}, ¬ core.Issues core' d record :=
      fun hissues => Nat.not_lt_of_le hissues.fresh h.issued
    rcases hcourse.recorded d record' hfind with ⟨record, hold, hcopy⟩ | hissues
    · rcases hcourse.held d hholds with ⟨hheld, -⟩ | ⟨_, -, -, hissues⟩
      · rw [hcopy.epoch_eq]
        exact UInt64.lt_of_lt_of_le (h.earlier record hold hheld) hcourse.epoch_le
      · exact absurd hissues hnew
    · exact absurd hissues hnew

theorem Over.follow (h : core.Over d) (hstamped : core.Stamped)
    (hguard : core.ResumesAbove event) (hrecalls : core.Recalls d event) :
    (core.follow event).Over d := by
  cases event with
  | call call =>
    have hdisk : (core.onDisk call.disk).Over d := ⟨h.issued, h.earlier⟩
    exact hdisk.course ((core.onDisk call.disk).course_perform hstamped.filed.next_pos _)
  | restart config surviving disk =>
    obtain ⟨hstatus, hboot⟩ := hguard
    obtain ⟨journal, hjournal, hdecided⟩ := hrecalls
    have hrestart : core.restart config surviving disk =
        EngineCore.boot config { journal.cut surviving with disk } := by
      rw [restart, hjournal]
    rw [hrestart] at hstatus
    change (core.restart config surviving disk).2.Over d
    rw [hrestart]
    obtain ⟨-, hearlier⟩ := hstamped.boot hjournal hstatus (hboot journal hjournal)
    refine ⟨?_, fun record hfind _ => hearlier d record hfind⟩
    obtain ⟨opened, state, ledger, epoch, journal', -, hreplay, -, -, -, heq⟩ :=
      boot_eq_recoveredCore hstatus
    rw [heq]
    obtain ⟨record, hmem, rfl⟩ := List.mem_map.mp hdecided
    exact Nat.lt_succ_of_le (ReplayState.decision_le_of_replayFrames hreplay hmem)

theorem Over.revoked (h : core.Over d) (hstamped : core.Stamped)
    (hanswer : core.revalidateLocked d claim = (.ok result, core')) : result.state = .revoked := by
  obtain ⟨record, hfind, -, hrevalidated⟩ := revalidated_of_revalidateLocked hanswer
  have hover : ∀ {verdict}, core.revalidationVerdict d record = verdict →
      ¬ (verdict = .ambiguous ∨ ∃ invalidated, verdict = .keep invalidated) := by
    intro verdict hverdict hkept
    obtain ⟨hheld, hepoch, -⟩ := running_of_verdict hverdict hkept
    exact UInt64.ne_of_lt (h.earlier record hfind hheld) hepoch
  generalize result.state = state at hrevalidated ⊢
  cases hrevalidated with
  | alreadyOver hstate =>
    rcases hstate with hstate | hexpired
    · exact hstate
    · exact absurd hexpired (hstamped.records d record hfind).2
  | revoked => rfl
  | ambiguous hverdict => exact absurd (Or.inl rfl) (hover hverdict)
  | valid hverdict | invalidated hverdict _ => exact absurd (Or.inr ⟨_, rfl⟩) (hover hverdict)

/-- In every run whose restarts succeed and find the boot record of the epoch that they end, a
valid answer is upheld, an answer that revokes nothing leaves the ledger alone, and a decision that
was revoked is revalidated as revoked from then on, if the restarts in between find its frame. -/
theorem revalidation_sound (h : Reachable Starting follow ResumesAbove core)
    (d : AdmissionDecisionId) :
    (∀ disk claim result core',
      (core.onDisk disk).revalidateLocked d claim = (.ok result, core') →
        (result.state = .valid →
          ∃ record, core.history.find d = some record ∧ core.Upheld d record) ∧
        (result.state = .valid ∨ result.state = .invalidated ∨ result.state = .ambiguous →
          core'.ledger = core.ledger)) ∧
      ∀ record, core.history.find d = some record → record.state = .revoked → ∀ later,
        Reachable (· = core) follow (fun core event => core.ResumesAbove event ∧
          core.Recalls d event) later →
        ∀ disk claim result core',
          (later.onDisk disk).revalidateLocked d claim = (.ok result, core') →
            result.state = .revoked := by
  have hstamped := stamped_of_reachable h
  refine ⟨fun disk claim result core' hanswer => ?_,
    fun record hfind hstate later hlater disk claim result core' hanswer => ?_⟩
  · obtain ⟨record, hfind, hadmitting, hrevalidated⟩ := revalidated_of_revalidateLocked hanswer
    generalize result.state = state at hrevalidated ⊢
    cases hrevalidated with
    | alreadyOver hstate =>
      rcases hstate with hstate | hstate <;> rw [hstate] <;> exact ⟨nofun, by simp⟩
    | revoked => exact ⟨nofun, by simp⟩
    | ambiguous _ => exact ⟨nofun, fun _ => rfl⟩
    | valid hverdict =>
      have hkept : core.revalidationVerdict d record = .keep false := hverdict
      obtain ⟨-, hepoch, -⟩ := running_of_verdict hkept (Or.inr ⟨false, rfl⟩)
      exact ⟨fun _ => ⟨record, hfind, upheld_of_valid hadmitting hkept
        (hstamped.catalogs d record hfind hadmitting hepoch)⟩, fun _ => rfl⟩
    | invalidated _ hledger => exact ⟨nofun, fun _ => hledger⟩
  · have hover : later.Stamped ∧ later.Over d := by
      refine hlater.invariant (I := fun core => core.Stamped ∧ core.Over d) ?_
        fun core event ⟨hstamped, hover⟩ ⟨hresumes, hrecalls⟩ =>
          ⟨hstamped.follow hresumes, hover.follow hstamped hresumes hrecalls⟩
      rintro _ rfl
      refine ⟨hstamped, hstamped.filed.below d record hfind, fun record' hfind' hholds => ?_⟩
      obtain ⟨_, hfind', hforce⟩ := hstamped.filed.held d hholds
      rw [hfind] at hfind'
      exact absurd (Option.some.inj hfind' ▸ hstate) hforce.2.1
    have hdisk : (later.onDisk disk).Over d := ⟨hover.2.issued, hover.2.earlier⟩
    exact hdisk.revoked (hover.1.onDisk disk) hanswer

section Examples

open SmallFabric

instance (core : EngineCore) (event : Event) : Decidable (core.ResumesAbove event) := by
  rcases event with call | ⟨config, surviving, disk⟩
  · exact instDecidableTrue
  · exact inferInstanceAs (Decidable (_ ∧ _))

instance (d : AdmissionDecisionId) (core : EngineCore) (event : Event) :
    Decidable (core.Recalls d event) := by
  rcases event with call | ⟨config, surviving, disk⟩
  · exact instDecidableTrue
  · exact inferInstanceAs (Decidable (∃ journal ∈ core.journal, _))

/-- The publications of the small fabric, for the second epoch. -/
def secondEpoch : List Operation :=
  [.publishPolicy { SmallFabric.policy with epoch := 2 },
    .publishCapacity { SmallFabric.capacity 1 [known 1 1 100] with epoch := 2 },
    .publishReservations { SmallFabric.reservations with epoch := 2 },
    .publishQosCatalog { qosCatalog with epoch := 2 },
    .publishPriorityCatalog { priorityCatalog with epoch := 2 }]

/-- A grant of the second incarnation, whose boot record meets the given disk. -/
def secondGrant (disk : List DiskOutcome) : List Event :=
  .call ⟨.beginNewIncarnation 0, disk⟩ :: Event.calls (secondEpoch ++
    [.admitRequest (SmallFabric.request 1 ⟨1, 10, 10⟩ [1]) {}])

/-- An engine on a new journal. -/
def firstCore : EngineCore := (boot { epoch := 0 } {}).2

theorem reachable_firstCore {guard : EngineCore → Event → Prop} :
    Reachable Starting follow guard firstCore :=
  .init (Or.inr ⟨{ epoch := 0 }, {}, [], rfl⟩)

/-- A grant of the second incarnation, which is still valid. -/
def secondCore : EngineCore := run follow firstCore (secondGrant [])

/-- The same grant, revoked. -/
def secondRevoked : EngineCore :=
  run follow secondCore (Event.calls [.revoke 1 .operatorRequest {}])

theorem reachable_secondCore : Reachable Starting follow ResumesAbove secondCore := by
  have hallowed : Allowed follow ResumesAbove firstCore (secondGrant []) := by decide +kernel
  exact reachable_firstCore.run hallowed

theorem reachable_secondRevoked : Reachable Starting follow ResumesAbove secondRevoked := by
  have hallowed : Allowed follow ResumesAbove secondCore
      (Event.calls [.revoke 1 .operatorRequest {}]) := by decide +kernel
  exact reachable_secondCore.run hallowed

/-- The grant is upheld; after its revocation and a restart it is revalidated as revoked. -/
theorem revalidation_secondCore :
    (∃ record, secondCore.history.find 1 = some record ∧ secondCore.Upheld 1 record) ∧
      ∀ result core', ((secondRevoked.follow (.restart { epoch := 0 } 10000 [])).onDisk
        []).revalidateLocked 1 {} = (.ok result, core') → result.state = .revoked := by
  constructor
  · have hvalid : ((secondCore.onDisk []).revalidateLocked 1 {}).1.toOption.map (·.state) =
        some RevalidationState.valid := by decide +kernel
    rcases hanswer : (secondCore.onDisk []).revalidateLocked 1 {} with ⟨status | result, core'⟩
    · rw [hanswer] at hvalid
      cases hvalid
    · rw [hanswer] at hvalid
      exact ((revalidation_sound reachable_secondCore 1).1 [] {} result core' hanswer).1
        (Option.some.inj hvalid)
  · have hstate : (secondRevoked.history.find 1).map (·.state) =
        some RevalidationState.revoked := by decide +kernel
    obtain ⟨record, hfind, hstate⟩ := Option.map_eq_some_iff.mp hstate
    intro result core' hanswer
    have hguard : secondRevoked.ResumesAbove (.restart { epoch := 0 } 10000 []) ∧
        secondRevoked.Recalls 1 (.restart { epoch := 0 } 10000 []) := by decide +kernel
    exact (revalidation_sound reachable_secondRevoked 1).2 record hfind hstate _
      (Reachable.step _ (.init rfl) hguard) [] {} result core' hanswer

/-- The boot record of the second incarnation is lost; its epoch is in use again. -/
def reusedCore : EngineCore :=
  run follow firstCore (secondGrant [.lost] ++ .restart { epoch := 0 } 10000 [] ::
    Event.calls ((secondEpoch.drop 1).take 2))

/-- There is no QoS catalog and no priority catalog, and the restored grant is found valid. -/
theorem valid_without_catalogs :
    Reachable Starting follow (fun _ _ => True) reusedCore ∧
      reusedCore.qos = none ∧ reusedCore.priorities = none ∧
      (reusedCore.revalidateLocked 1 {}).1.toOption.map (·.state) =
        some RevalidationState.valid ∧
      ¬ ∃ record, reusedCore.history.find 1 = some record ∧ reusedCore.Upheld 1 record := by
  have hqos : reusedCore.qos = none := by decide +kernel
  refine ⟨?_, hqos, by decide +kernel, by decide +kernel, ?_⟩
  · have hallowed : Allowed follow (fun _ _ => True) firstCore (secondGrant [.lost] ++
        .restart { epoch := 0 } 10000 [] :: Event.calls ((secondEpoch.drop 1).take 2)) := by
      decide +kernel
    exact reachable_firstCore.run hallowed
  · rintro ⟨record, -, hupheld⟩
    have hcatalog := hupheld.qos
    rw [hqos] at hcatalog
    cases hcatalog

end Examples

end EngineCore

end AdmissionFabric
