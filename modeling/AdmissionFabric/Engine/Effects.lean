import AdmissionFabric.Engine.LedgerAccounting
import AdmissionFabric.Engine.Operation

/-!
# What the calls of the engine can do

Inversion lemmas: for each function that changes the engine, the list of everything it can have
done, with the failure points of its writes. Invariants are proved from these lists, never by
unfolding the functions.
-/

namespace AdmissionFabric

namespace EngineCore

variable {ledger : AdmittedLoadLedger} {written : Option Journal}
    {cache : Std.ExtTreeMap AdmissionDecisionId AdmissionDecision} {decision : AdmissionDecision}
    {outcome : Outcome Unit} {ready : Bool} {d : AdmissionDecisionId} {record : JournalRecord}
    {journal : Journal}

theorem writeRecord_eq (core : EngineCore) (record : JournalRecord)
    {result : Except Status Unit} {journal : Option Journal}
    (h : writeJournal core.journal core.journalReady record = (result, journal)) :
    core.writeRecord record = (result, { core with journal }) := by
  simp only [writeRecord, h]

theorem writeJournal_eq_ok_iff :
    (writeJournal (some journal) ready record).1 = .ok () ↔
      (ready = true → journal.Accepts record ∧ journal.Persists (journal.outcomeOf 0)) := by
  cases ready with
  | false => simp [writeJournal]
  | true => simp [writeJournal, Journal.append_eq_ok_iff]

theorem of_writeJournal_error {status : Status}
    (h : writeJournal (some journal) ready record = (.error status, written)) :
    ready = true ∧ ¬ (journal.Accepts record ∧ journal.Persists (journal.outcomeOf 0)) := by
  have hfailed : (writeJournal (some journal) ready record).1 ≠ .ok () := by rw [h]; exact nofun
  rwa [ne_eq, writeJournal_eq_ok_iff, Classical.not_imp] at hfailed

theorem exists_of_writeJournal_ok
    (h : writeJournal (some journal) ready record = (.ok (), written)) :
    ∃ journal', written = some journal' ∧ (ready = true →
      (journal.Accepts record ∧ journal.Persists (journal.outcomeOf 0)) ∧
        journal.Written journal') := by
  cases ready with
  | false =>
    obtain ⟨-, rfl⟩ := Prod.mk.inj h
    exact ⟨journal, rfl, nofun⟩
  | true =>
    obtain ⟨hok, rfl⟩ := Prod.mk.inj h
    exact ⟨_, rfl, fun _ =>
      ⟨Journal.append_eq_ok_iff.mp hok, Journal.written_of_append_ok hok⟩⟩

theorem remember_of_lt (hroom : cache.size < Limits.maxDecisionRecords)
    (decision : AdmissionDecision) :
    remember cache decision = cache.insert decision.decision decision := by
  rw [remember, if_neg (Nat.not_le.mpr hroom)]

theorem getElem?_remember {cached : AdmissionDecision}
    (h : (remember cache decision)[d]? = some cached) :
    d = decision.decision ∧ cached = decision ∨ cache[d]? = some cached := by
  unfold remember at h
  rw [Std.ExtTreeMap.getElem?_insert] at h
  split at h
  · rename_i heq
    exact Or.inl ⟨(Std.LawfulEqCmp.eq_of_compare heq).symm, (Option.some.inj h).symm⟩
  · right
    split at h
    · split at h
      · rw [Std.ExtTreeMap.getElem?_erase] at h
        split at h
        · cases h
        · exact h
      · exact h
    · exact h

/-! ### Refusals -/

/-- The two ways a refusal ends. -/
inductive RefusalEffect (core : EngineCore) (decision : AdmissionDecision)
    (request : AdmissionRequest) (recordAttempt : Bool) : Outcome Unit → Prop
  | unwritten {status : Status} {journal : Option Journal}
      (hwrite : writeJournal core.journal core.journalReady
        (.admissionRefused (core.toRecord decision)) = (.error status, journal)) :
      RefusalEffect core decision request recordAttempt (.error status, { core with journal })
  | settled {journal : Option Journal}
      (hwrite : writeJournal core.journal core.journalReady
        (.admissionRefused (core.toRecord decision)) = (.ok (), journal)) :
      RefusalEffect core decision request recordAttempt
        (.ok (), settle { core with journal } decision (core.toRecord decision)
          (if recordAttempt then some (core.attemptOf request decision) else none))

theorem finishRefusal_effect {core : EngineCore} {request : AdmissionRequest}
    {recordAttempt : Bool} (h : core.finishRefusal decision request recordAttempt = outcome) :
    RefusalEffect core decision request recordAttempt outcome := by
  subst h
  rcases hwrite : writeJournal core.journal core.journalReady
    (.admissionRefused (core.toRecord decision)) with ⟨status | ⟨⟩, journal⟩
  · rw [finishRefusal, writeRecord_eq _ _ hwrite]
    exact .unwritten hwrite
  · rw [finishRefusal, writeRecord_eq _ _ hwrite]
    exact .settled hwrite

/-! ### Grants -/

/-- The ways a grant ends. -/
inductive GrantEffect (core : EngineCore) (decision : AdmissionDecision)
    (request : AdmissionRequest) (amounts : List (ResourceId × Rate)) : Outcome Unit → Prop
  | unprepared {status : Status} {journal : Option Journal}
      (hprepare : writeJournal core.journal core.journalReady
        (.admissionPrepare (core.prepareOf decision amounts)) = (.error status, journal)) :
      GrantEffect core decision request amounts (.error status, { core with journal })
  | unreserved {status : Status} {journal : Option Journal} {ledger : AdmittedLoadLedger}
      (hprepare : writeJournal core.journal core.journalReady
        (.admissionPrepare (core.prepareOf decision amounts)) = (.ok (), journal))
      (hreserve : core.ledger.reserve decision.decision decision.demand core.epoch
        decision.boundCapacityGeneration decision.selectedPath amounts = (.error status, ledger)) :
      GrantEffect core decision request amounts (.error status, { core with journal, ledger })
  | uncommitted {status : Status} {journal journal' : Option Journal}
      {ledger : AdmittedLoadLedger}
      (hprepare : writeJournal core.journal core.journalReady
        (.admissionPrepare (core.prepareOf decision amounts)) = (.ok (), journal))
      (hreserve : core.ledger.reserve decision.decision decision.demand core.epoch
        decision.boundCapacityGeneration decision.selectedPath amounts = (.ok (), ledger))
      (hcommit : writeJournal journal core.journalReady
        (.admissionCommit (core.liveRecord decision)) = (.error status, journal')) :
      GrantEffect core decision request amounts (.error status, { core with
        journal := journal'
        ledger := match ledger.release decision.decision with
          | .ok (_, released) => released
          | .error _ => ledger })
  | committed {journal journal' : Option Journal} {ledger : AdmittedLoadLedger}
      (hprepare : writeJournal core.journal core.journalReady
        (.admissionPrepare (core.prepareOf decision amounts)) = (.ok (), journal))
      (hreserve : core.ledger.reserve decision.decision decision.demand core.epoch
        decision.boundCapacityGeneration decision.selectedPath amounts = (.ok (), ledger))
      (hcommit : writeJournal journal core.journalReady
        (.admissionCommit (core.liveRecord decision)) = (.ok (), journal')) :
      GrantEffect core decision request amounts
        (settle { core with journal := journal', ledger } decision (core.liveRecord decision)
          (some (core.attemptOf request decision))).compactIfNeededLocked

/-- An undone reservation is released, or it cannot be released and stays. -/
theorem undone_induction {P : AdmittedLoadLedger → Prop} (hkept : P ledger)
    (hreleased : ∀ es released, ledger.release d = .ok (es, released) → P released) :
    P (match ledger.release d with
      | .ok (_, released) => released
      | .error _ => ledger) := by
  split
  · rename_i hrelease
    exact hreleased _ _ hrelease
  · exact hkept

theorem undone_eq {released : AdmittedLoadLedger} {es : List LedgerEntry}
    (hrelease : ledger.release d = .ok (es, released)) :
    (match ledger.release d with
      | .ok (_, released) => released
      | .error _ => ledger) = released := by
  rw [hrelease]

theorem finishAdmission_effect {core : EngineCore} {request : AdmissionRequest}
    {amounts : List (ResourceId × Rate)}
    (h : core.finishAdmission decision request amounts = outcome) :
    GrantEffect core decision request amounts outcome := by
  subst h
  rcases hprepare : writeJournal core.journal core.journalReady
    (.admissionPrepare (core.prepareOf decision amounts)) with ⟨status | ⟨⟩, journal⟩
  · rw [finishAdmission, writeRecord_eq _ _ hprepare]
    exact .unprepared hprepare
  rw [finishAdmission, writeRecord_eq _ _ hprepare, Outcome.andThen_ok]
  rcases hreserve : core.ledger.reserve decision.decision decision.demand core.epoch
    decision.boundCapacityGeneration decision.selectedPath amounts with ⟨status | ⟨⟩, ledger⟩
  · simp only [reserveLoad, hreserve, Outcome.andThen_error]
    exact .unreserved hprepare hreserve
  simp only [reserveLoad, hreserve, Outcome.andThen_ok]
  rcases hcommit : writeJournal journal core.journalReady
    (.admissionCommit (core.liveRecord decision)) with ⟨status | ⟨⟩, journal'⟩
  · have heffect : GrantEffect core decision request amounts _ :=
      .uncommitted hprepare hreserve hcommit
    rw [commitLoad, writeRecord_eq { core with journal, ledger } _ hcommit]
    have hdecision : (core.liveRecord decision).decision = decision.decision := rfl
    simp only [hdecision]
    cases hrel : ledger.release decision.decision with
    | error status' | ok released => simpa only [hrel, Outcome.andThen_error] using heffect
  · rw [commitLoad, writeRecord_eq { core with journal, ledger } _ hcommit]
    exact .committed hprepare hreserve hcommit

theorem compactLocked_snd (core : EngineCore) :
    core.compactLocked.2 = { core with journal := core.compactLocked.2.journal } := by
  unfold compactLocked
  split
  · rfl
  · split <;> rfl

theorem compactIfNeededLocked_snd (core : EngineCore) :
    core.compactIfNeededLocked.2 =
      { core with journal := core.compactIfNeededLocked.2.journal } := by
  unfold compactIfNeededLocked
  split
  · rfl
  · split
    · exact core.compactLocked_snd
    · rfl

/-! ### Releases -/

/-- The ways a release ends. -/
inductive ReleaseEffect (core : EngineCore) (decision : AdmissionDecisionId)
    (reason : RevocationReason) (state : RevalidationState) (explanation : Explanation) :
    Outcome Explanation → Prop
  | unheld (hheld : core.ledger.holds decision = false) :
      ReleaseEffect core decision reason state explanation
        (.error ⟨.notFound, "decision holds no admitted load"⟩, core)
  | unwritten {status : Status} {journal : Option Journal}
      (hheld : core.ledger.holds decision = true)
      (hwrite : writeJournal core.journal core.journalReady
        (.ledgerRelease (core.releaseOf decision reason)) = (.error status, journal)) :
      ReleaseEffect core decision reason state explanation (.error status, { core with journal })
  | stuck {status : Status} {journal : Option Journal}
      (hheld : core.ledger.holds decision = true)
      (hwrite : writeJournal core.journal core.journalReady
        (.ledgerRelease (core.releaseOf decision reason)) = (.ok (), journal))
      (hrelease : core.ledger.release decision = .error status) :
      ReleaseEffect core decision reason state explanation (.error status, { core with journal })
  | unmarked {status : Status} {journal journal' : Option Journal}
      {released : List LedgerEntry} {ledger : AdmittedLoadLedger}
      (hheld : core.ledger.holds decision = true)
      (hwrite : writeJournal core.journal core.journalReady
        (.ledgerRelease (core.releaseOf decision reason)) = (.ok (), journal))
      (hrelease : core.ledger.release decision = .ok (released, ledger))
      (hmark : writeJournal journal core.journalReady
        (.revocation (core.revocationOf decision reason state)) = (.error status, journal')) :
      ReleaseEffect core decision reason state explanation
        (.error status, { core with journal := journal', ledger })
  | released {journal journal' : Option Journal} {released : List LedgerEntry}
      {ledger : AdmittedLoadLedger}
      (hheld : core.ledger.holds decision = true)
      (hwrite : writeJournal core.journal core.journalReady
        (.ledgerRelease (core.releaseOf decision reason)) = (.ok (), journal))
      (hrelease : core.ledger.release decision = .ok (released, ledger))
      (hmark : writeJournal journal core.journalReady
        (.revocation (core.revocationOf decision reason state)) = (.ok (), journal')) :
      ReleaseEffect core decision reason state explanation
        (.ok (explanation.add (releaseNote decision reason released)),
          settleRelease { core with journal := journal', ledger } decision reason state)

theorem releaseDecisionLocked_effect {core : EngineCore} {decision : AdmissionDecisionId}
    {reason : RevocationReason} {state : RevalidationState} {explanation : Explanation}
    {outcome : Outcome Explanation}
    (h : core.releaseDecisionLocked decision reason state explanation = outcome) :
    ReleaseEffect core decision reason state explanation outcome := by
  subst h
  unfold releaseDecisionLocked
  cases hheld : core.ledger.holds decision with
  | false => exact .unheld hheld
  | true =>
    rcases hwrite : writeJournal core.journal core.journalReady
      (.ledgerRelease (core.releaseOf decision reason)) with ⟨status | ⟨⟩, journal⟩
    · rw [writeRecord_eq _ _ hwrite]
      exact .unwritten hheld hwrite
    rw [writeRecord_eq _ _ hwrite]
    rcases hrelease : core.ledger.release decision with status | ⟨released, ledger⟩
    · simp only [Bool.not_true, Bool.false_eq_true, ↓reduceIte, Outcome.andThen_ok, hrelease]
      exact .stuck hheld hwrite hrelease
    simp only [Bool.not_true, Bool.false_eq_true, ↓reduceIte, Outcome.andThen_ok, hrelease]
    rcases hmark : writeJournal journal core.journalReady
      (.revocation (core.revocationOf decision reason state)) with ⟨status | ⟨⟩, journal'⟩
    · have hcall := writeRecord_eq { core with journal, ledger }
        (.revocation (revocationOf { core with journal, ledger } decision reason state)) hmark
      rw [hcall]
      exact .unmarked hheld hwrite hrelease hmark
    · have hcall := writeRecord_eq { core with journal, ledger }
        (.revocation (revocationOf { core with journal, ledger } decision reason state)) hmark
      rw [hcall]
      exact .released hheld hwrite hrelease hmark

/-! ### Decisions -/

section Decisions

variable (core : EngineCore) (request : AdmissionRequest) (claim : ClaimContext)

@[simp] theorem decision_refusal (reason : Refusal) (evidence : Option Evidence) :
    (core.refusal request claim reason evidence).decision = core.nextDecisionSequence := by
  cases evidence <;> rfl

@[simp] theorem audit_refusal (reason : Refusal) (evidence : Option Evidence) :
    (core.refusal request claim reason evidence).audit = core.audit := by
  cases evidence <;> rfl

@[simp] theorem outcome_refusal (reason : Refusal) (evidence : Option Evidence) :
    (core.refusal request claim reason evidence).outcome = reason.outcome := by
  cases evidence <;> rfl

/-- A decision states the request that it is on and the tick of the engine. -/
structure Describes (tick : UInt64) (request : AdmissionRequest)
    (decision : AdmissionDecision) : Prop where
  requestId : decision.request = request.request
  demand : decision.demand = request.demand
  demandGeneration : decision.demandGeneration = request.demandGeneration
  attempt : decision.attempt = request.attempt
  fingerprint : decision.requestFingerprint = request.fingerprint
  decidedTick : decision.decidedTick = tick

theorem describes_refusal (reason : Refusal) (evidence : Option Evidence) :
    Describes core.tick request (core.refusal request claim reason evidence) := by
  cases evidence <;> constructor <;>
    simp only [refusal, expose, Authority.fillEffective, newDecision]

theorem describes_admission (grant : Grant) :
    Describes core.tick request (core.admission request claim grant) := by
  constructor <;> simp only [admission, expose, Authority.fillEffective, newDecision]

@[simp] theorem decision_admission (grant : Grant) :
    (core.admission request claim grant).decision = core.nextDecisionSequence := rfl

@[simp] theorem audit_admission (grant : Grant) :
    (core.admission request claim grant).audit = core.audit := rfl

end Decisions

/-! ### Admission calls -/

@[simp] theorem answer_snd (decision : AdmissionDecision) (outcome : Outcome Unit) :
    (answer decision outcome).2 = outcome.2 := by
  obtain ⟨_ | ⟨⟩, core⟩ := outcome <;> rfl

theorem answer_fst_eq_ok_iff {decision' : AdmissionDecision} :
    (answer decision outcome).1 = .ok decision' ↔ outcome.1 = .ok () ∧ decision' = decision := by
  obtain ⟨_ | ⟨⟩, core⟩ := outcome <;> simp [answer, eq_comm]

@[simp] theorem releaseFor_snd (core : EngineCore) (result : RevalidationResult) :
    (core.releaseFor result).2 = (core.releaseDecisionLocked result.decision result.reason
      result.state result.explanation).2 := by
  unfold releaseFor
  obtain ⟨_ | explanation, core'⟩ := core.releaseDecisionLocked result.decision result.reason
    result.state result.explanation <;> rfl

end EngineCore

end AdmissionFabric
