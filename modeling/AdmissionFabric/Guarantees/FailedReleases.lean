import AdmissionFabric.Engine.EnforceSpec
import AdmissionFabric.Guarantees.IndependentAdmissions

/-!
# Releases that fail

A release writes a release frame, takes the load off the ledger, writes a revocation frame and then
marks the record. It can fail after each of the first three steps.

The ledger refuses a release when the total of one of the resources is gone. Totals are erased when
they reach zero, and a request with a minimum of zero can be granted zero: once another decision has
erased the total, the grant of zero can never be released.

The load leaves the ledger before the second frame is written. When only that write fails, the call
reports an error about a decision that has lost its load, while its record still says it is live.
-/

namespace AdmissionFabric

open AdmittedLoadLedger

namespace AdmittedLoadLedger

variable {ledger : AdmittedLoadLedger} {d : AdmissionDecisionId}

/-- Whether the ledger accepts the release of a decision: every resource it holds load on still has
a total, and one that covers the amount. -/
def Removable (ledger : AdmittedLoadLedger) (d : AdmissionDecisionId) : Prop :=
  d ≠ 0 ∧ ∀ e ∈ ledger.held d, ∃ total, ledger.totals[e.resource]? = some total ∧ e.amount ≤ total

theorem release_isOk_iff (hheld : ledger.holds d = true) :
    (∃ out, ledger.release d = .ok out) ↔ ledger.Removable d := by
  obtain ⟨es, hd⟩ := holds_eq_true_iff.mp hheld
  rw [Removable, held_of_getElem? hd, ← checkTotals_eq_ok_iff]
  constructor
  · rintro ⟨⟨es', ledger'⟩, hrelease⟩
    obtain ⟨hne, hd', hcheck, -⟩ := release_eq_ok_iff.mp hrelease
    obtain rfl := Option.some.inj (hd.symm.trans hd')
    exact ⟨hne, hcheck⟩
  · rintro ⟨hne, hcheck⟩
    exact ⟨_, release_eq_ok_iff.mpr ⟨hne, hd, hcheck, rfl⟩⟩

theorem WellFormed.removable_iff (hwf : ledger.WellFormed) (hne : d ≠ 0)
    (hheld : ledger.holds d = true) :
    ledger.Removable d ↔ ∀ e ∈ ledger.held d, e.amount ≠ 0 ∨ e.resource ∈ ledger.totals := by
  obtain ⟨es, hd⟩ := holds_eq_true_iff.mp hheld
  rw [Removable, held_of_getElem? hd]
  have hcovered : ∀ e ∈ es, e.amount ≤ ledger.admitted e.resource := fun e he =>
    hwf.amount_le_admitted (mem_heldEntries.mpr ⟨d, es, hd, he⟩)
  simp only [admitted, Std.ExtTreeMap.getD_eq_getD_getElem?] at hcovered
  constructor
  · rintro ⟨-, hall⟩ e he
    obtain ⟨total, htotal, -⟩ := hall e he
    exact Or.inr (Std.ExtTreeMap.mem_iff_isSome_getElem?.mpr (by rw [htotal]; rfl))
  · refine fun hall => ⟨hne, fun e he => ?_⟩
    have hle := hcovered e he
    cases htotal : ledger.totals[e.resource]? with
    | some total => exact ⟨total, rfl, by simpa [htotal] using hle⟩
    | none =>
      rw [htotal] at hle
      rcases hall e he with hpos | hmem
      · exact absurd (UInt64.le_zero_iff.mp hle) hpos
      · rw [Std.ExtTreeMap.mem_iff_isSome_getElem?, htotal] at hmem
        cases hmem

end AdmittedLoadLedger

namespace EngineCore

open SmallFabric
open TransitionSystem (Reachable)

variable {result : RevalidationResult} {core : EngineCore} {d : AdmissionDecisionId}

/-! ### Without a journal -/

theorem released_iff_removable (hjournal : core.journal = none)
    (hheld : core.ledger.holds d = true) (reason : RevocationReason) (state : RevalidationState)
    (explanation : Explanation) :
    ((∃ note, (core.releaseDecisionLocked d reason state explanation).1 = .ok note) ∧
        (core.releaseDecisionLocked d reason state explanation).2.ledger.holds d = false) ↔
      core.ledger.Removable d := by
  rw [← AdmittedLoadLedger.release_isOk_iff hheld]
  generalize hcall : core.releaseDecisionLocked d reason state explanation = outcome
  cases releaseDecisionLocked_effect hcall with
  | unheld hnot => rw [hheld] at hnot; cases hnot
  | unwritten _ hwrite => rw [hjournal] at hwrite; cases hwrite
  | stuck _ _ hrelease => simp [hrelease]
  | unmarked _ hwrite _ hmark =>
    rw [hjournal] at hwrite
    cases hwrite
    cases hmark
  | released _ _ hrelease _ =>
    refine iff_of_true ⟨⟨_, rfl⟩, ?_⟩ ⟨_, hrelease⟩
    obtain ⟨-, -, -, rfl⟩ := release_eq_ok_iff.mp hrelease
    rw [settleRelease, AdmittedLoadLedger.holds, getElem?_byDecision_without,
      if_pos rfl, Option.isSome_none]

/-- In every state of an engine without a journal, held load is released by the attempt to release
it exactly if none of it is an amount of zero whose total was erased. -/
theorem released_iff_counted
    (h : Reachable (fun core => ∃ config, core = EngineCore.fresh config) EngineCore.after
      (fun _ _ => True) core)
    (hheld : core.ledger.holds d = true) (reason : RevocationReason) (state : RevalidationState)
    (explanation : Explanation) :
    ((∃ note, (core.releaseDecisionLocked d reason state explanation).1 = .ok note) ∧
        (core.releaseDecisionLocked d reason state explanation).2.ledger.holds d = false) ↔
      ∀ e ∈ core.ledger.held d, e.amount ≠ 0 ∨ e.resource ∈ core.ledger.totals := by
  have hmemory := inMemory_of_reachable h
  obtain ⟨record, hfind, -⟩ := hmemory.consistent.admitting d hheld
  have hne : d ≠ 0 := (hmemory.consistent.indexed.listed d record hfind).2.1
  rw [released_iff_removable hmemory.journal hheld,
    hmemory.consistent.wellFormed.removable_iff hne hheld]

/-- A grant of twenty. -/
def plainGrant : List Operation :=
  announce [known 1 1 100] ++ [.admitRequest (request 1 ⟨1, 20, 20⟩ [1]) {}]

theorem released_plainGrant :
    let core := (fresh {}).performAll plainGrant
    core.ledger.holds 1 = true ∧
      (core.releaseDecisionLocked 1 .operatorRequest .revoked {}).2.ledger.holds 1 = false := by
  have hheld : ((fresh {}).performAll plainGrant).ledger.holds 1 = true := by
    decide +kernel
  have hpositive : (((fresh {}).performAll plainGrant).ledger.held 1).all
      (fun e => e.amount != 0) = true := by decide +kernel
  have hreachable : Reachable (fun core => ∃ config, core = fresh config)
      after (fun _ _ => True) ((fresh {}).performAll plainGrant) :=
    Reachable.run (.init ⟨{}, rfl⟩) (by decide +kernel)
  exact ⟨hheld, ((released_iff_counted hreachable hheld .operatorRequest .revoked {}).mpr
    fun e he => Or.inl (bne_iff_ne.mp (List.all_eq_true.mp hpositive e he))).2⟩

/-- Two grants of zero; the release of the first erases the total of the resource. -/
def erasedTotal : List Operation :=
  announce [known 1 1 0] ++
    [.admitRequest (request 1 ⟨0, 5, 5⟩ [1]) {}, .admitRequest (request 2 ⟨0, 5, 5⟩ [1]) {},
      .revoke 1 .operatorRequest {}]

/-- The second grant of zero can not be released any more. -/
theorem stuck_erasedTotal :
    let core := (fresh {}).performAll erasedTotal
    core.ledger.holds 2 = true ∧
      (core.releaseDecisionLocked 2 .operatorRequest .revoked {}).1.toBool = false ∧
      (core.releaseDecisionLocked 2 .operatorRequest .revoked {}).2.ledger.holds 2 = true := by
  decide +kernel

/-! ### With a journal -/

/-- The load of a decision and its record are as they were. -/
structure Intact (core : EngineCore) (d : AdmissionDecisionId) (core' : EngineCore) : Prop where
  holds : core'.ledger.holds d = true
  held : core'.ledger.held d = core.ledger.held d
  find : core'.history.find d = core.history.find d

/-- The journal takes the release frame of a decision, the ledger lets its load go, and the journal
fails to take the revocation frame. -/
def TornRelease (core : EngineCore) (journal : Journal) (d : AdmissionDecisionId) : Prop :=
  core.journalReady = true ∧ core.ledger.Removable d ∧ journal.isOpen = true ∧
    21 + 57 * (core.ledger.entriesOf d).length ≤ journal.options.maxPayload ∧
    journal.Persists (journal.outcomeOf 0) ∧
    ¬ (26 ≤ journal.options.maxPayload ∧ journal.Persists (journal.outcomeOf 1))

section Release

variable {journal : Journal} {reason : RevocationReason} {state : RevalidationState}

theorem accepts_releaseOf_iff :
    journal.Accepts (.ledgerRelease (core.releaseOf d reason)) ↔ journal.isOpen = true ∧
      21 + 57 * (core.ledger.entriesOf d).length ≤ journal.options.maxPayload := by
  rw [Journal.Accepts, JournalRecord.payload, length_encode_release]
  rfl

theorem accepts_revocationOf_iff :
    journal.Accepts (.revocation (core.revocationOf d reason state)) ↔
      journal.isOpen = true ∧ 26 ≤ journal.options.maxPayload := by
  rw [Journal.Accepts, JournalRecord.payload, length_encode_revocation]

theorem intact_release_iff (hjournal : core.journal = some journal)
    (hheld : core.ledger.holds d = true) (explanation : Explanation) :
    ((∃ status, (core.releaseDecisionLocked d reason state explanation).1 = .error status) →
        core.Intact d (core.releaseDecisionLocked d reason state explanation).2) ↔
      ¬ core.TornRelease journal d := by
  generalize hcall : core.releaseDecisionLocked d reason state explanation = outcome
  cases releaseDecisionLocked_effect hcall with
  | unheld hnot => rw [hheld] at hnot; cases hnot
  | unwritten _ hwrite =>
    refine iff_of_true (fun _ => ⟨hheld, rfl, rfl⟩) ?_
    rintro ⟨-, -, hopen, hlength, hpersists, -⟩
    rw [hjournal] at hwrite
    exact (of_writeJournal_error hwrite).2
      ⟨accepts_releaseOf_iff.mpr ⟨hopen, hlength⟩, hpersists⟩
  | stuck _ _ hrelease =>
    refine iff_of_true (fun _ => ⟨hheld, rfl, rfl⟩) ?_
    rintro ⟨-, hremovable, -⟩
    obtain ⟨out, hout⟩ := (AdmittedLoadLedger.release_isOk_iff hheld).mpr hremovable
    rw [hrelease] at hout
    cases hout
  | unmarked _ hwrite hrelease hmark =>
    have hremovable := (AdmittedLoadLedger.release_isOk_iff hheld).mp ⟨_, hrelease⟩
    obtain ⟨-, -, -, rfl⟩ := release_eq_ok_iff.mp hrelease
    refine iff_of_false (fun hintact => ?_) (not_not_intro ?_)
    · have hholds := (hintact ⟨_, rfl⟩).holds
      rw [AdmittedLoadLedger.holds, getElem?_byDecision_without,
        if_pos rfl] at hholds
      cases hholds
    · rw [hjournal] at hwrite
      obtain ⟨journal', rfl, hwritten⟩ := exists_of_writeJournal_ok hwrite
      obtain ⟨hready, hfails⟩ := of_writeJournal_error hmark
      obtain ⟨⟨haccepts, hpersists⟩, hwritten⟩ := hwritten hready
      obtain ⟨hopen, hlength⟩ := accepts_releaseOf_iff.mp haccepts
      rw [hwritten.accepts_iff, accepts_revocationOf_iff, hwritten.persists_iff,
        hwritten.outcomeOf] at hfails
      exact ⟨hready, hremovable, hopen, hlength, hpersists, fun hnext =>
        hfails ⟨⟨hopen, hnext.1⟩, hnext.2⟩⟩
  | released _ hwrite _ hmark =>
    refine iff_of_true (fun herror => ?_) ?_
    · obtain ⟨_, herror⟩ := herror
      cases herror
    rintro ⟨hready, -, -, -, -, hfails⟩
    rw [hjournal] at hwrite
    obtain ⟨journal', rfl, hwritten⟩ := exists_of_writeJournal_ok hwrite
    obtain ⟨-, hwritten⟩ := hwritten hready
    obtain ⟨_, -, hmarked⟩ := exists_of_writeJournal_ok hmark
    obtain ⟨⟨haccepts, hpersists⟩, -⟩ := hmarked hready
    rw [hwritten.accepts_iff, accepts_revocationOf_iff] at haccepts
    rw [hwritten.persists_iff, hwritten.outcomeOf] at hpersists
    exact hfails ⟨haccepts.2, hpersists⟩

theorem isError_releaseFor_iff :
    (∃ status, (core.releaseFor result).1 = .error status) ↔
      ∃ status, (core.releaseDecisionLocked result.decision result.reason result.state
        result.explanation).1 = .error status := by
  unfold releaseFor
  obtain ⟨status | explanation, core'⟩ := core.releaseDecisionLocked result.decision
    result.reason result.state result.explanation <;> simp [Outcome.andThen]

end Release

/-! ### Revocation and revalidation -/

/-- A decision that is retained, admitted traffic and has not been released. -/
structure Unreleased (core : EngineCore) (d : AdmissionDecisionId) (record : DecisionRecord) :
    Prop where
  find : core.history.find d = some record
  admitting : record.outcome.isAdmitting = true
  not_revoked : record.state ≠ .revoked
  not_expired : record.state ≠ .expired

/-- The authorities of a grant are there, its path is up, its resources carry their load. -/
def Justified (core : EngineCore) (d : AdmissionDecisionId) (record : DecisionRecord) : Prop :=
  core.capacity ≠ none ∧ (core.reservations ≠ none ∧ core.policy ≠ none) ∧
    (record.path ≠ 0 → ∃ fact, core.findPath record.path = some fact ∧ fact.state = .up) ∧
    ∀ e ∈ core.ledger.entriesOf d, core.toAuthority.Fits core.ledger e

/-- A grant that revalidation has to release: it was issued by another incarnation, or its load has
been reconciled and is no longer justified. -/
def Condemned (core : EngineCore) (d : AdmissionDecisionId) (record : DecisionRecord) : Prop :=
  (record.epoch ≠ core.epoch ∨ record.incarnation ≠ core.incarnation) ∨
    (∀ e ∈ core.ledger.entriesOf d, e.requiresRevalidation = false) ∧ ¬ core.Justified d record

variable {journal : Journal} {record : DecisionRecord}

theorem checkGrantedPath_eq_ok_iff {authority : Authority} {path : PathId} :
    authority.checkGrantedPath path = .ok () ↔
      (path ≠ 0 → ∃ fact, authority.findPath path = some fact ∧ fact.state = .up) := by
  unfold Authority.checkGrantedPath
  by_cases hpath : path = 0
  · simp [hpath]
  · cases authority.findPath path <;> simp [hpath]

theorem checkGrant_eq_ok_iff :
    core.checkGrant core.ledger record d = .ok () ↔ core.Justified d record := by
  have hmap : ∀ (x : Except BindingConstraint Unit)
      (f : BindingConstraint → RevocationReason × BindingConstraint),
      x.mapError f = .ok () ↔ x = .ok () := by
    rintro (note | ⟨⟩) f <;> simp [Except.mapError]
  simp only [Authority.checkGrant, check_bind_eq_ok_iff, rejectIf_eq_ok_iff, hmap, forM_eq_ok_iff,
    Authority.checkEntry_eq_ok_iff, checkGrantedPath_eq_ok_iff, not_or, Justified, ne_eq]

theorem revalidationVerdict_eq_revoke_iff (hunreleased : core.Unreleased d record)
    (hheld : core.ledger.holds d = true) :
    (∃ reason note, core.revalidationVerdict d record = .revoke reason note) ↔
      core.Condemned d record := by
  unfold revalidationVerdict Condemned
  rw [if_neg (by simp [hunreleased.not_revoked, hunreleased.not_expired]), if_neg (by simp [hheld])]
  by_cases hforeign : record.epoch ≠ core.epoch ∨ record.incarnation ≠ core.incarnation
  · rw [if_pos hforeign]
    exact iff_of_true ⟨_, _, rfl⟩ (Or.inl hforeign)
  rw [if_neg hforeign, ← checkGrant_eq_ok_iff]
  by_cases hflagged : (core.ledger.entriesOf d).any (·.requiresRevalidation) = true
  · rw [if_pos hflagged]
    refine iff_of_false (by simp) ?_
    rintro (hcontra | ⟨hclear, -⟩)
    · exact hforeign hcontra
    · obtain ⟨e, he, hflag⟩ := List.any_eq_true.mp hflagged
      rw [hclear e he] at hflag
      cases hflag
  rw [if_neg hflagged]
  have hclear : ∀ e ∈ core.ledger.entriesOf d, e.requiresRevalidation = false := fun e he => by
    by_contra hflag
    exact hflagged (List.any_eq_true.mpr ⟨e, he, Bool.of_not_eq_false hflag⟩)
  cases hgrant : core.checkGrant core.ledger record d with
  | ok _ => exact iff_of_false (by simp) fun hcontra => hcontra.elim hforeign (·.2 rfl)
  | error refusal => exact iff_of_true ⟨_, _, rfl⟩ (Or.inr ⟨hclear, nofun⟩)

theorem unreleased_of_revoke (hfind : core.history.find d = some record)
    (hadmitting : record.outcome.isAdmitting = true)
    (h : ∃ reason note, core.revalidationVerdict d record = .revoke reason note) :
    core.Unreleased d record := by
  have hlive : ¬ (record.state = .revoked ∨ record.state = .expired) := fun hreleased => by
    obtain ⟨reason, note, h⟩ := h
    rw [revalidationVerdict, if_pos hreleased] at h
    cases h
  rw [not_or] at hlive
  exact ⟨hfind, hadmitting, hlive.1, hlive.2⟩

theorem Unreleased.eq {found : DecisionRecord} (h : core.Unreleased d record)
    (hfind : core.history.find d = some found) : record = found :=
  Option.some.inj (h.find.symm.trans hfind)

theorem intact_revokeLocked_iff (hjournal : core.journal = some journal)
    (hheld : core.ledger.holds d = true) (reason : RevocationReason) (claim : ClaimContext) :
    ((∃ status, (core.revokeLocked d reason claim).1 = .error status) →
        core.Intact d (core.revokeLocked d reason claim).2) ↔
      ¬ ((∃ record, core.Unreleased d record) ∧ core.TornRelease journal d) := by
  unfold revokeLocked
  cases hfind : core.history.find d with
  | none =>
    refine iff_of_true (fun _ => ⟨hheld, rfl, rfl⟩) ?_
    rintro ⟨⟨record, hrecord⟩, -⟩
    rw [hrecord.find] at hfind
    cases hfind
  | some record =>
    by_cases hunreleased : core.Unreleased d record
    · simp only [hunreleased.admitting, hunreleased.not_revoked, hunreleased.not_expired, hheld,
        Bool.not_true, Bool.false_eq_true, or_self, ↓reduceIte]
      rw [isError_releaseFor_iff, releaseFor_snd]
      exact (intact_release_iff hjournal hheld _).trans
        (not_congr (and_iff_right ⟨record, hunreleased⟩).symm)
    · -- nothing is released, and the answer is not an error
      refine iff_of_true ?_ ?_
      · rintro ⟨status, herror⟩
        simp only at herror
        split at herror
        · cases herror
        · rename_i hadmitting
          split at herror
          · cases herror
          · rename_i hlive
            simp only [not_or] at hlive
            exact absurd ⟨hfind, by simpa using hadmitting, hlive.1, hlive.2.1⟩ hunreleased
      · rintro ⟨⟨found, hfound⟩, -⟩
        exact hunreleased (hfound.eq hfind ▸ hfound)

theorem intact_markInvalidated {status : Status} (hheld : core.ledger.holds d = true)
    (h : (core.markInvalidated result).1 = .error status) :
    core.Intact d (core.markInvalidated result).2 := by
  unfold markInvalidated at h ⊢
  rcases hwrite : writeJournal core.journal core.journalReady (.revocation
    (core.revocationOf result.decision result.reason result.state)) with ⟨status | ⟨⟩, journal⟩
  · rw [writeRecord_eq _ _ hwrite]
    exact ⟨hheld, rfl, rfl⟩
  · rw [writeRecord_eq _ _ hwrite] at h
    cases h

theorem intact_revalidateLocked_iff (hjournal : core.journal = some journal)
    (hheld : core.ledger.holds d = true) (claim : ClaimContext) :
    ((∃ status, (core.revalidateLocked d claim).1 = .error status) →
        core.Intact d (core.revalidateLocked d claim).2) ↔
      ¬ ((∃ record, core.Unreleased d record ∧ core.Condemned d record) ∧
        core.TornRelease journal d) := by
  have hsame : core.Intact d core := ⟨hheld, rfl, rfl⟩
  cases hfind : core.history.find d with
  | none =>
    simp only [revalidateLocked, hfind]
    refine iff_of_true (fun _ => hsame) ?_
    rintro ⟨⟨record, hrecord, -⟩, -⟩
    rw [hrecord.find] at hfind
    cases hfind
  | some record =>
    cases hadmitting : record.outcome.isAdmitting with
    | false =>
      simp only [revalidateLocked, hfind, hadmitting, Bool.not_false, ↓reduceIte]
      refine iff_of_true (fun _ => hsame) ?_
      rintro ⟨⟨found, hfound, -⟩, -⟩
      obtain rfl := hfound.eq hfind
      rw [hfound.admitting] at hadmitting
      cases hadmitting
    | true =>
      simp only [revalidateLocked, hfind, hadmitting, Bool.not_true, Bool.false_eq_true, ↓reduceIte]
      -- a condemned grant gets the verdict to revoke it, so every other verdict is harmless
      have hverdict : (∃ record, core.Unreleased d record ∧ core.Condemned d record) ↔
          ∃ reason note, core.revalidationVerdict d record = .revoke reason note := by
        constructor
        · rintro ⟨found, hfound, hcondemned⟩
          obtain rfl := hfound.eq hfind
          exact (revalidationVerdict_eq_revoke_iff hfound hheld).mpr hcondemned
        · intro hrevoke
          have hunreleased := unreleased_of_revoke hfind hadmitting hrevoke
          exact ⟨record, hunreleased,
            (revalidationVerdict_eq_revoke_iff hunreleased hheld).mp hrevoke⟩
      rw [hverdict]
      cases core.revalidationVerdict d record with
      | alreadyReleased | unheld | ambiguous => simp
      | keep invalidated =>
        refine iff_of_true ?_ (by simp)
        cases invalidated with
        | false => simp
        | true => exact fun ⟨_, herror⟩ => intact_markInvalidated hheld herror
      | revoke reason note =>
        simp only [isError_releaseFor_iff, releaseFor_snd]
        exact (intact_release_iff hjournal hheld _).trans
          (not_congr (and_iff_right ⟨reason, note, rfl⟩).symm)

/-- A failed revocation or revalidation of a held decision leaves its load and its record as they
were exactly if it is not a release that is torn between its two frames. -/
theorem intact_iff_not_tornRelease (hjournal : core.journal = some journal)
    (hheld : core.ledger.holds d = true) (reason : RevocationReason) (claim : ClaimContext) :
    (((∃ status, (core.revokeLocked d reason claim).1 = .error status) →
          core.Intact d (core.revokeLocked d reason claim).2) ↔
        ¬ ((∃ record, core.Unreleased d record) ∧ core.TornRelease journal d)) ∧
      (((∃ status, (core.revalidateLocked d claim).1 = .error status) →
          core.Intact d (core.revalidateLocked d claim).2) ↔
        ¬ ((∃ record, core.Unreleased d record ∧ core.Condemned d record) ∧
          core.TornRelease journal d)) :=
  ⟨intact_revokeLocked_iff hjournal hheld reason claim,
    intact_revalidateLocked_iff hjournal hheld claim⟩

/-- A grant in an engine with a journal, before a call whose writes have the given outcomes. -/
def journaledGrant (disk : List DiskOutcome) : EngineCore :=
  ((boot {} {}).2.performAll plainGrant).onDisk disk

/-- The write of the release frame fails. -/
theorem intact_journaledGrant :
    (journaledGrant [.lost]).ledger.holds 1 = true ∧
      ((journaledGrant [.lost]).revokeLocked 1 .operatorRequest {}).1.toBool = false ∧
      (journaledGrant [.lost]).Intact 1
        ((journaledGrant [.lost]).revokeLocked 1 .operatorRequest {}).2 := by
  have hheld : (journaledGrant [.lost]).ledger.holds 1 = true := by decide +kernel
  have hdisk : (journaledGrant [.lost]).journal.map (·.disk) = some [.lost] := by decide +kernel
  have hfails : ((journaledGrant [.lost]).revokeLocked 1 .operatorRequest {}).1.toBool = false := by
    decide +kernel
  obtain ⟨journal, hjournal, hlost⟩ := Option.map_eq_some_iff.mp hdisk
  refine ⟨hheld, hfails,
    (intact_iff_not_tornRelease hjournal hheld .operatorRequest {}).1.mpr ?_ ?_⟩
  · rintro ⟨-, -, -, -, -, hpersists, -⟩
    simp [Journal.outcomeOf, hlost, Journal.Persists] at hpersists
  · revert hfails
    cases ((journaledGrant [.lost]).revokeLocked 1 .operatorRequest {}).1 with
    | ok result =>
      intro htrue
      cases htrue
    | error status => exact fun _ => ⟨status, rfl⟩

/-- The write of the revocation frame fails: the revocation is reported as failed, and the load is
gone all the same. -/
theorem torn_journaledGrant :
    let core := journaledGrant [.synced, .lost]
    core.ledger.holds 1 = true ∧
      (core.revokeLocked 1 .operatorRequest {}).1.toBool = false ∧
      (core.revokeLocked 1 .operatorRequest {}).2.ledger.holds 1 = false ∧
      ((core.revokeLocked 1 .operatorRequest {}).2.history.find 1).map (·.ledgerLive) =
        some true := by
  decide +kernel

end EngineCore

end AdmissionFabric
