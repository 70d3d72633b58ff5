import AdmissionFabric.Guarantees.FailedReleases

/-!
# Fenced claimants and releases

`begin_new_incarnation` promises that every claim stamped with a previous epoch is refused as
fenced from then on. Revalidation and revocation take a claim and never look at it: a claimant
that `check_fence` refuses releases the load of any live decision, and marks its record.

A fenced call changes nothing only where no call would: the decision is not retained, admitted
nothing or is already released, or neither the release nor the mark can be carried out.
-/

namespace AdmissionFabric

namespace EngineCore

open SmallFabric

variable {core : EngineCore} {d : AdmissionDecisionId} {record : DecisionRecord}

/-- The ledger and every decision record are those of another state. -/
def KeepsLoad (core core' : EngineCore) : Prop :=
  core'.ledger = core.ledger ∧ ∀ d, core'.history.find d = core.history.find d

/-- The next frame is written: no journal is in use, or it takes a payload of this size. -/
def TakesFrame (core : EngineCore) (bytes : Nat) : Prop :=
  core.journalReady = true → ∀ journal ∈ core.journal,
    (journal.isOpen = true ∧ bytes ≤ journal.options.maxPayload) ∧
      journal.Persists (journal.outcomeOf 0)

theorem writeJournal_ok_iff_takesFrame (core : EngineCore) (frame : JournalRecord) :
    (writeJournal core.journal core.journalReady frame).1 = .ok () ↔
      core.TakesFrame frame.payload.length := by
  unfold TakesFrame
  cases core.journal with
  | none => exact iff_of_true rfl fun _ _ h => nomatch h
  | some journal =>
    rw [writeJournal_eq_ok_iff]
    simp [Journal.Accepts]

/-- A decision can be released: its release frame is written and the ledger lets it go. -/
def LetsGo (core : EngineCore) (d : AdmissionDecisionId) : Prop :=
  core.ledger.holds d = true ∧ core.TakesFrame (21 + 57 * (core.ledger.entriesOf d).length) ∧
    core.ledger.Removable d

theorem writeJournal_releaseOf_iff (core : EngineCore) (d : AdmissionDecisionId)
    (reason : RevocationReason) :
    (writeJournal core.journal core.journalReady
        (.ledgerRelease (core.releaseOf d reason))).1 = .ok () ↔
      core.TakesFrame (21 + 57 * (core.ledger.entriesOf d).length) := by
  rw [writeJournal_ok_iff_takesFrame, JournalRecord.payload, length_encode_release]
  rfl

theorem keepsLoad_release_iff (reason : RevocationReason) (state : RevalidationState)
    (explanation : Explanation) :
    core.KeepsLoad (core.releaseDecisionLocked d reason state explanation).2 ↔
      ¬ core.LetsGo d := by
  have hframe := core.writeJournal_releaseOf_iff d reason
  have hchanged : ∀ {released : List LedgerEntry} {ledger : AdmittedLoadLedger},
      core.ledger.holds d = true → core.ledger.release d = .ok (released, ledger) →
      ledger ≠ core.ledger := by
    rintro released ledger hheld hrelease rfl
    obtain ⟨-, -, -, heq⟩ := AdmittedLoadLedger.release_eq_ok_iff.mp hrelease
    rw [AdmittedLoadLedger.holds, heq, AdmittedLoadLedger.getElem?_byDecision_without,
      if_pos rfl] at hheld
    cases hheld
  unfold LetsGo
  rw [← hframe]
  generalize hcall : core.releaseDecisionLocked d reason state explanation = outcome
  cases releaseDecisionLocked_effect hcall with
  | unheld hheld => simp [KeepsLoad, hheld]
  | unwritten hheld hwrite => simp [KeepsLoad, hwrite]
  | stuck hheld hwrite hrelease =>
    simp [KeepsLoad, ← AdmittedLoadLedger.release_isOk_iff hheld, hrelease]
  | unmarked hheld hwrite hrelease _ =>
    simp [KeepsLoad, hheld, hwrite, ← AdmittedLoadLedger.release_isOk_iff hheld, hrelease,
      hchanged hheld hrelease]
  | released hheld hwrite hrelease _ =>
    simp [KeepsLoad, hheld, hwrite, ← AdmittedLoadLedger.release_isOk_iff hheld, hrelease,
      settleRelease, hchanged hheld hrelease]

/-! ### Marks -/

theorem find_modify_eq_iff {history : DecisionHistory} (hfind : history.find d = some record)
    {f : DecisionRecord → DecisionRecord} (haudit : (f record).audit = record.audit) :
    (∀ d', (history.modify d f).find d' = history.find d') ↔ f record = record := by
  have hmodify : ∀ d', (history.modify d f).find d' =
      if d = d' then some (f record) else history.find d' := by
    intro d'
    rw [DecisionHistory.modify, hfind]
    simp only [DecisionHistory.find_update, hfind, Option.map_some, ← haudit]
  constructor
  · intro h
    have hself := h d
    rw [hmodify, if_pos rfl, hfind] at hself
    exact Option.some.inj hself
  · intro h d'
    rw [hmodify, h]
    split
    · rename_i heq
      rw [← heq, hfind]
    · rfl

/-- Marking a record as invalidated is written and changes it. -/
def Markable (core : EngineCore) (record : DecisionRecord) : Prop :=
  core.TakesFrame 26 ∧ (record.state, record.reason) ≠ (.invalidated, .generationAdvance)

theorem keepsLoad_markInvalidated_iff (hfind : core.history.find d = some record)
    {result : RevalidationResult} (hdecision : result.decision = d)
    (hreason : result.reason = .generationAdvance) (hstate : result.state = .invalidated) :
    core.KeepsLoad (core.markInvalidated result).2 ↔ ¬ core.Markable record := by
  have hframe := core.writeJournal_ok_iff_takesFrame
    (.revocation (core.revocationOf d .generationAdvance .invalidated))
  rw [JournalRecord.payload, length_encode_revocation] at hframe
  unfold markInvalidated Markable
  rw [hdecision, hreason, hstate, ← hframe]
  rcases hwrite : writeJournal core.journal core.journalReady (.revocation
    (core.revocationOf d .generationAdvance .invalidated)) with ⟨status | ⟨⟩, journal⟩
  · rw [writeRecord_eq _ _ hwrite]
    simp [KeepsLoad]
  · rw [writeRecord_eq _ _ hwrite]
    have hmarked := find_modify_eq_iff hfind
      (f := fun record => { record with state := .invalidated, reason := .generationAdvance }) rfl
    have hsame : ({ record with state := .invalidated, reason := .generationAdvance } :
        DecisionRecord) = record ↔
          (record.state, record.reason) = (.invalidated, .generationAdvance) := by
      cases record
      simp [eq_comm]
    simp only [Outcome.andThen_ok, KeepsLoad, true_and, hmarked, hsame]
    simp

/-! ### Fenced calls -/

/-- A justified grant of this incarnation rests on an authority that has advanced. -/
def Outdated (core : EngineCore) (d : AdmissionDecisionId) (record : DecisionRecord) : Prop :=
  (record.epoch = core.epoch ∧ record.incarnation = core.incarnation) ∧
    (∀ e ∈ core.ledger.entriesOf d, e.requiresRevalidation = false) ∧
    core.Justified d record ∧ core.invalidates record = true

/-- No claimant can change the load or the record of a decision: it is not retained, admitted
nothing or is released already; or it holds load that cannot be released, and where revalidation
finds it outdated its record cannot be marked either. -/
def Untouchable (core : EngineCore) (d : AdmissionDecisionId) : Prop :=
  ∀ record, core.Unreleased d record →
    core.ledger.holds d = true ∧ ¬ core.LetsGo d ∧
      (core.Outdated d record → ¬ core.Markable record)

theorem keepsLoad_refl (core : EngineCore) : core.KeepsLoad core := ⟨rfl, fun _ => rfl⟩

theorem keepsLoad_of_released (h : ∀ record, ¬ core.Unreleased d record) (reason : RevocationReason)
    (claim : ClaimContext) :
    core.KeepsLoad (core.revokeLocked d reason claim).2 ∧
      core.KeepsLoad (core.revalidateLocked d claim).2 := by
  unfold revokeLocked revalidateLocked
  cases hfind : core.history.find d with
  | none => exact ⟨core.keepsLoad_refl, core.keepsLoad_refl⟩
  | some record =>
    cases hadmitting : record.outcome.isAdmitting with
    | false => simp [hadmitting, keepsLoad_refl]
    | true =>
      have hreleased : record.state = .revoked ∨ record.state = .expired := by
        by_contra hlive
        rw [not_or] at hlive
        exact h record ⟨hfind, hadmitting, hlive.1, hlive.2⟩
      have hdone : record.state = .revoked ∨ record.state = .expired ∨
          core.ledger.holds d = false := or_assoc.mp (Or.inl hreleased)
      simp [hadmitting, revalidationVerdict, hreleased, hdone, keepsLoad_refl]

theorem keepsLoad_revokeLocked_iff (h : core.Unreleased d record) (reason : RevocationReason)
    (claim : ClaimContext) :
    core.KeepsLoad (core.revokeLocked d reason claim).2 ↔ ¬ core.LetsGo d := by
  simp only [revokeLocked, h.find, h.admitting, Bool.not_true, Bool.false_eq_true, ↓reduceIte,
    h.not_revoked, h.not_expired, false_or]
  split
  · rename_i hunheld
    refine iff_of_true core.keepsLoad_refl fun hletsGo => ?_
    simp [hletsGo.1] at hunheld
  · rw [releaseFor_snd]
    exact keepsLoad_release_iff _ _ _

theorem revalidationVerdict_eq_keep_iff (h : core.Unreleased d record)
    (hheld : core.ledger.holds d = true) :
    core.revalidationVerdict d record = .keep true ↔ core.Outdated d record := by
  unfold revalidationVerdict Outdated
  rw [if_neg (by simp [h.not_revoked, h.not_expired]), if_neg (by simp [hheld]),
    ← checkGrant_eq_ok_iff]
  by_cases hforeign : record.epoch ≠ core.epoch ∨ record.incarnation ≠ core.incarnation
  · rw [if_pos hforeign]
    refine iff_of_false nofun fun hcontra => ?_
    exact hforeign.elim (· hcontra.1.1) (· hcontra.1.2)
  rw [if_neg hforeign]
  simp only [not_or, not_not] at hforeign
  by_cases hflagged : (core.ledger.entriesOf d).any (·.requiresRevalidation) = true
  · rw [if_pos hflagged]
    obtain ⟨e, he, hflag⟩ := List.any_eq_true.mp hflagged
    refine iff_of_false nofun fun hcontra => ?_
    simp [hcontra.2.1 e he] at hflag
  have hclear : ∀ e ∈ core.ledger.entriesOf d, e.requiresRevalidation = false := by
    simpa using hflagged
  rw [if_neg hflagged]
  cases core.checkGrant core.ledger record d with
  | error refusal => simp
  | ok _ => simpa [hforeign] using fun _ => hclear

theorem keepsLoad_revalidateLocked_iff (h : core.Unreleased d record)
    (hstuck : ¬ core.LetsGo d) (claim : ClaimContext) :
    core.KeepsLoad (core.revalidateLocked d claim).2 ↔
      core.ledger.holds d = true ∧ (core.Outdated d record → ¬ core.Markable record) := by
  simp only [revalidateLocked, h.find, h.admitting, Bool.not_true, Bool.false_eq_true, ↓reduceIte]
  cases hheld : core.ledger.holds d with
  | false =>
    have hverdict : core.revalidationVerdict d record = .unheld := by
      simp [revalidationVerdict, h.not_revoked, h.not_expired, hheld]
    rw [hverdict]
    refine iff_of_false (fun hkeeps => ?_) (by simp)
    have hsame := (find_modify_eq_iff h.find (f := fun record =>
      { record with state := .revoked, reason := .claimantDeath, ledgerLive := false }) rfl).mp
      hkeeps.2
    exact h.not_revoked (congrArg DecisionRecord.state hsame).symm
  | true =>
    rw [← revalidationVerdict_eq_keep_iff h hheld]
    cases hverdict : core.revalidationVerdict d record with
    | alreadyReleased | ambiguous => simp [keepsLoad_refl]
    | unheld =>
      simp only [revalidationVerdict, h.not_revoked, h.not_expired, hheld] at hverdict
      grind
    | revoke reason note =>
      rw [releaseFor_snd]
      exact iff_of_true ((keepsLoad_release_iff _ _ _).mpr hstuck) (by simp)
    | keep invalidated =>
      cases invalidated with
      | false => simp [keepsLoad_refl]
      | true => simpa using keepsLoad_markInvalidated_iff h.find rfl rfl rfl

/-- A revocation and a revalidation by a fenced claimant leave the ledger and every decision record
unchanged exactly if no claimant could change them. -/
theorem keepsLoad_iff_untouchable (core : EngineCore) (d : AdmissionDecisionId)
    (reason : RevocationReason) {claim : ClaimContext} {refusal : Refusal}
    (_hfenced : core.checkFence claim = .error refusal) :
    core.KeepsLoad (core.revokeLocked d reason claim).2 ∧
        core.KeepsLoad (core.revalidateLocked d claim).2 ↔
      core.Untouchable d := by
  unfold Untouchable
  by_cases hlive : ∃ record, core.Unreleased d record
  · obtain ⟨record, h⟩ := hlive
    have hone : ∀ found, core.Unreleased d found → record = found := fun _ hfound =>
      h.eq hfound.find
    have hspelled : (∀ found, core.Unreleased d found → core.ledger.holds d = true ∧
        ¬ core.LetsGo d ∧ (core.Outdated d found → ¬ core.Markable found)) ↔
        ¬ core.LetsGo d ∧ core.ledger.holds d = true ∧
          (core.Outdated d record → ¬ core.Markable record) := by
      constructor
      · intro hall
        exact and_left_comm.mp (hall record h)
      · intro hthis found hfound
        rw [← hone found hfound]
        exact and_left_comm.mp hthis
    rw [hspelled, keepsLoad_revokeLocked_iff h]
    exact and_congr_right fun hstuck => keepsLoad_revalidateLocked_iff h hstuck claim
  · rw [not_exists] at hlive
    exact iff_of_true (keepsLoad_of_released hlive reason claim) fun record h =>
      absurd h (hlive record)

/-! ### Runs -/

/-- An engine with one grant of 20 on a resource. -/
def grantedCore : EngineCore :=
  (EngineCore.fresh {}).performAll (announce [known 1 1 100] ++
    [.admitRequest (request 1 ⟨1, 20, 20⟩ [1]) {}])

/-- A claim of another epoch. -/
def staleClaim : ClaimContext := { epoch := 7 }

/-- The same engine after the grant was revoked. -/
def revokedCore : EngineCore := grantedCore.performAll [.revoke 1 .operatorRequest {}]

theorem exists_fenced {core : EngineCore} {claim : ClaimContext}
    (h : (core.checkFence claim).toBool = false) :
    ∃ refusal, core.checkFence claim = .error refusal := by
  cases hfence : core.checkFence claim with
  | error refusal => exact ⟨refusal, rfl⟩
  | ok _ =>
    rw [hfence] at h
    cases h

/-- A decision that was released before is out of the reach of a fenced claimant. -/
theorem keepsLoad_revoked :
    revokedCore.KeepsLoad (revokedCore.revokeLocked 1 .operatorRequest staleClaim).2 ∧
      revokedCore.KeepsLoad (revokedCore.revalidateLocked 1 staleClaim).2 := by
  have hstate : (revokedCore.history.find 1).map (·.state) = some .revoked := by decide +kernel
  have huntouchable : revokedCore.Untouchable 1 := by
    intro record h
    rw [h.find] at hstate
    exact absurd (Option.some.inj hstate) h.not_revoked
  obtain ⟨refusal, hfenced⟩ : ∃ refusal, revokedCore.checkFence staleClaim = .error refusal :=
    exists_fenced (by decide +kernel)
  exact (keepsLoad_iff_untouchable revokedCore 1 .operatorRequest hfenced).mpr huntouchable

/-- A claim that is refused as fenced releases a live grant. -/
theorem released_by_fenced :
    (∃ refusal, grantedCore.checkFence staleClaim = .error refusal) ∧
      grantedCore.ledger.admitted 1 = 20 ∧
      (grantedCore.revokeLocked 1 .operatorRequest staleClaim).2.ledger.admitted 1 = 0 :=
  ⟨exists_fenced (by decide +kernel), by decide +kernel, by decide +kernel⟩

end EngineCore

end AdmissionFabric
