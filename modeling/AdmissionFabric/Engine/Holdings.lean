import AdmissionFabric.Engine.LedgerRuns

/-!
# What vouches for the load

Every entry of the ledger belongs to a decision whose record is retained, admitted the demand and
does not say that the grant is over. The entry repeats what the record says about the demand, the
path, the epoch and the capacity generation. Every operation keeps this, whatever its writes do.
-/

namespace AdmissionFabric

open AdmittedLoadLedger DecisionHistory

/-- The entry is one of the decision that the record is about. -/
structure LedgerEntry.StemsFrom (entry : LedgerEntry) (record : DecisionRecord) : Prop where
  decision : entry.decision = record.decision
  demand : entry.demand = record.demand
  path : entry.path = record.path
  epoch : entry.epoch = record.epoch
  boundCapacityGeneration : entry.boundCapacityGeneration = record.boundCapacityGeneration

/-- The record is of an admission and does not say that it is over. -/
def DecisionRecord.InForce (record : DecisionRecord) : Prop :=
  record.outcome.isAdmitting = true ∧ record.state ≠ .revoked ∧ record.state ≠ .expired

namespace EngineCore

/-- The books are kept, and every entry has a record in force that it stems from. -/
structure Vouched (core : EngineCore) : Prop where
  consistent : core.Consistent
  vouched : ∀ (d : AdmissionDecisionId) es, core.ledger.byDecision[d]? = some es →
    ∃ record, core.history.find d = some record ∧ record.InForce ∧ ∀ e ∈ es, e.StemsFrom record

variable {core core' : EngineCore}

/-! ### Changes that keep what vouches -/

theorem SameDecision.stemsFrom {record record' : DecisionRecord} (h : SameDecision record record')
    {entry : LedgerEntry} (hentry : entry.StemsFrom record) : entry.StemsFrom record' := by
  rw [h]
  exact ⟨hentry.decision, hentry.demand, hentry.path, hentry.epoch, hentry.boundCapacityGeneration⟩

/-- Load may shrink, and records of what is held may be marked while they stay in force. -/
theorem Vouched.carry (h : core.Vouched) (hconsistent : core'.Consistent)
    (hheld : ∀ (d : AdmissionDecisionId) es', core'.ledger.byDecision[d]? = some es' →
      ∃ es, ∃ flag : LedgerEntry → Bool, core.ledger.byDecision[d]? = some es ∧
        es' = es.map fun e => { e with requiresRevalidation := flag e })
    (hfind : ∀ d record, core'.ledger.holds d = true → core.history.find d = some record →
      record.InForce → ∃ record', core'.history.find d = some record' ∧ record'.InForce ∧
        SameDecision record record') : core'.Vouched := by
  refine ⟨hconsistent, fun d es' hes' => ?_⟩
  obtain ⟨es, flag, hes, rfl⟩ := hheld d es' hes'
  obtain ⟨record, hrecord, hforce, hstems⟩ := h.vouched d es hes
  have hholds := holds_of_getElem? hes'
  obtain ⟨record', hrecord', hforce', hsame⟩ := hfind d record hholds hrecord hforce
  refine ⟨record', hrecord', hforce', fun e he => ?_⟩
  obtain ⟨e, hmem, rfl⟩ := List.mem_map.mp he
  have hentry := hsame.stemsFrom (hstems e hmem)
  exact ⟨hentry.decision, hentry.demand, hentry.path, hentry.epoch, hentry.boundCapacityGeneration⟩

theorem held_self {ledger : AdmittedLoadLedger} (d : AdmissionDecisionId) (es : List LedgerEntry)
    (h : ledger.byDecision[d]? = some es) :
    ∃ es', ∃ flag : LedgerEntry → Bool, ledger.byDecision[d]? = some es' ∧
      es = es'.map fun e => { e with requiresRevalidation := flag e } :=
  ⟨es, LedgerEntry.requiresRevalidation, h, by simp⟩

theorem Vouched.sameStores (h : core.Vouched) (hconsistent : core'.Consistent)
    (hledger : core'.ledger.byDecision = core.ledger.byDecision)
    (hhistory : core'.history = core.history) : core'.Vouched :=
  h.carry hconsistent (fun d es hes => held_self d es (hledger ▸ hes))
    fun _ record _ hfind hforce => ⟨record, hhistory ▸ hfind, hforce, rfl⟩

theorem find_settle_of_holds (core : EngineCore) (decision : AdmissionDecision)
    (record : DecisionRecord) (attempt : Option AttemptRecord) {d : AdmissionDecisionId}
    (hne : record.decision ≠ 0) (hholds : core.ledger.holds d = true) :
    (core.settle decision record attempt).history.find d =
      if record.decision = d then some record else core.history.find d := by
  have hret := trimHistory_retires (core.history.insert record) core.ledger
  change (trimHistory (core.history.insert record) core.ledger).find d = _
  rw [hret.find_of_holds d hholds, find_insert hne]

theorem Consistent.ne_next (h : core.Consistent) {d : AdmissionDecisionId}
    (hholds : core.ledger.holds d = true) : d ≠ core.nextDecisionSequence := by
  obtain ⟨record, hfind, -⟩ := h.admitting d hholds
  exact Nat.ne_of_lt (h.below d record hfind).1

/-! ### Transactions -/

namespace Vouched

theorem refusal (h : core.Vouched) (request : AdmissionRequest) (claim : ClaimContext)
    (reason : Refusal) (evidence : Option Evidence) (recordAttempt : Bool) :
    (core.consumeIdentity.finishRefusal (core.refusal request claim reason evidence) request
      recordAttempt).2.Vouched := by
  have hconsistent := h.consistent.refusal request claim reason evidence recordAttempt
  have hdecision := core.decision_refusal request claim reason evidence
  generalize core.refusal request claim reason evidence = decision at hconsistent hdecision ⊢
  generalize hcall : core.consumeIdentity.finishRefusal _ _ _ = outcome at hconsistent ⊢
  cases finishRefusal_effect hcall with
  | unwritten _ => exact h.sameStores hconsistent rfl rfl
  | @settled journal _ =>
    refine h.carry hconsistent held_self fun d record hholds hfind hforce => ?_
    have hpos : decision.decision ≠ 0 := hdecision ▸ Nat.ne_of_gt h.consistent.next_pos
    have hne : decision.decision ≠ d := hdecision ▸ (h.consistent.ne_next hholds).symm
    have hkept := find_settle_of_holds { core.consumeIdentity with journal } decision
      (core.consumeIdentity.toRecord decision)
      (if recordAttempt then some (core.consumeIdentity.attemptOf request decision) else none)
      hpos hholds
    exact ⟨record, hkept.trans ((if_neg hne).trans hfind), hforce, rfl⟩

theorem stemsFrom_newEntries {request : AdmissionRequest} {claim : ClaimContext} {grant : Grant}
    {entry : LedgerEntry} (hentry : entry ∈ AdmittedLoadLedger.newEntries
      (core.admission request claim grant).decision (core.admission request claim grant).demand
      core.epoch (core.admission request claim grant).boundCapacityGeneration
      (core.admission request claim grant).selectedPath (amountsOf grant)) :
    entry.StemsFrom (core.consumeIdentity.liveRecord (core.admission request claim grant)) := by
  obtain ⟨amount, -, rfl⟩ := List.mem_map.mp hentry
  exact ⟨rfl, rfl, rfl, rfl, rfl⟩

theorem grant (h : core.Vouched) {request : AdmissionRequest} {claim : ClaimContext}
    {grant : Grant} (hverdict : core.verdict request claim = .grant grant) :
    (core.consumeIdentity.finishAdmission (core.admission request claim grant) request
      (amountsOf grant)).2.Vouched := by
  have heval := (verdict_eq_grant hverdict).2.2.2
  have hnodup := nodup_amountsOf heval
  have hconsistent := h.consistent.grant hverdict
  generalize hcall : core.consumeIdentity.finishAdmission _ _ _ = outcome at hconsistent ⊢
  cases finishAdmission_effect hcall with
  | unprepared _ => exact h.sameStores hconsistent rfl rfl
  | unreserved _ hreserve =>
    exact h.sameStores hconsistent (reserve_of_error hnodup hreserve).1 rfl
  | uncommitted _ hreserve _ =>
    obtain ⟨es, released, hrelease, hby, -⟩ :=
      release_of_reserve hnodup hreserve
    simp only [hrelease] at hconsistent ⊢
    exact h.sameStores hconsistent hby rfl
  | @committed _ journal' ledger _ hreserve _ =>
    rw [compactIfNeededLocked_snd] at hconsistent ⊢
    refine ⟨hconsistent, fun d es hes => ?_⟩
    change ledger.byDecision[d]? = some es at hes
    have hholds := holds_of_getElem? hes
    have hkept := find_settle_of_holds { core.consumeIdentity with journal := journal', ledger }
      (core.admission request claim grant)
      (core.consumeIdentity.liveRecord (core.admission request claim grant))
      (some (core.consumeIdentity.attemptOf request (core.admission request claim grant)))
      (Nat.ne_of_gt h.consistent.next_pos) hholds
    -- a grant that was held before keeps its record
    have hold : core.ledger.byDecision[d]? = some es → ∃ record,
        (if core.nextDecisionSequence = d then
            some (core.consumeIdentity.liveRecord (core.admission request claim grant))
          else core.history.find d) = some record ∧
          record.InForce ∧ ∀ e ∈ es, e.StemsFrom record := by
      intro hes
      obtain ⟨record, hrecord, hforce, hstems⟩ := h.vouched d es hes
      have hne := h.consistent.ne_next (holds_of_getElem? hes)
      exact ⟨record, (if_neg hne.symm).trans hrecord, hforce, hstems⟩
    rcases byDecision_of_reserve hreserve with hby | ⟨-, -, hby⟩
    · obtain ⟨record, hrecord, hvouches⟩ := hold (hby ▸ hes)
      exact ⟨record, hkept.trans hrecord, hvouches⟩
    · rw [hby, Std.ExtTreeMap.getElem?_insert] at hes
      split at hes
      · rename_i heq
        have heq : core.nextDecisionSequence = d := Std.compare_eq_iff_eq.mp heq
        obtain rfl := Option.some.inj hes
        refine ⟨_, hkept.trans (if_pos heq), ?_, fun e he => stemsFrom_newEntries he⟩
        exact ⟨Authority.isAdmitting_of_evaluate heval, nofun, nofun⟩
      · obtain ⟨record, hrecord, hvouches⟩ := hold hes
        exact ⟨record, hkept.trans hrecord, hvouches⟩

theorem release (h : core.Vouched) (d : AdmissionDecisionId) (reason : RevocationReason)
    (state : RevalidationState) (explanation : Explanation) :
    (core.releaseDecisionLocked d reason state explanation).2.Vouched := by
  have hconsistent := h.consistent.release d reason state explanation
  have hshrunk : ∀ {es : List LedgerEntry} {ledger : AdmittedLoadLedger},
      core.ledger.release d = .ok (es, ledger) → ∀ (d' : AdmissionDecisionId) es',
        ledger.byDecision[d']? = some es' → d ≠ d' ∧ core.ledger.byDecision[d']? = some es' := by
    intro es ledger hrelease d' es' hes'
    obtain ⟨-, -, -, rfl⟩ := release_eq_ok_iff.mp hrelease
    rw [getElem?_byDecision_without] at hes'
    split at hes'
    · cases hes'
    · exact ⟨‹_›, hes'⟩
  generalize hcall : core.releaseDecisionLocked d reason state explanation = outcome
    at hconsistent ⊢
  cases releaseDecisionLocked_effect hcall with
  | unheld _ => exact h
  | unwritten _ _ | stuck _ _ _ => exact h.sameStores hconsistent rfl rfl
  | unmarked _ _ hrelease _ =>
    exact h.carry hconsistent
      (fun d' es' hes' => held_self d' es' (hshrunk hrelease d' es' hes').2)
      fun _ record _ hfind hforce => ⟨record, hfind, hforce, rfl⟩
  | @released _ _ _ ledger _ _ hrelease _ =>
    refine h.carry hconsistent
      (fun d' es' hes' => held_self d' es' (hshrunk hrelease d' es' hes').2)
      fun d' record hholds hfind hforce => ⟨record, ?_, hforce, rfl⟩
    -- the record that is marked is the one whose load is gone
    obtain ⟨es', hes'⟩ := Option.isSome_iff_exists.mp hholds
    change (core.history.modify d _).find d' = some record
    rw [find_modify, if_neg (hshrunk hrelease d' es' hes').1]
    exact hfind

theorem mark (h : core.Vouched) (d : AdmissionDecisionId) {f : DecisionRecord → DecisionRecord}
    (hf : ∀ record, SameDecision record (f record)) (htruthful : core.Truthful d f) :
    ({ core with history := core.history.modify d f } : EngineCore).Vouched := by
  refine h.carry (h.consistent.modify d hf) held_self fun d' record hholds hfind hforce => ?_
  rw [find_modify]
  by_cases hd : d = d'
  · subst hd
    have hsame := hf record
    refine ⟨{ f record with audit := record.audit }, ?_,
      ⟨?_, htruthful.not_revoked hholds record, htruthful.not_expired record⟩, ?_⟩
    · rw [if_pos rfl, hfind, Option.map_some]
    · rw [hsame]
      exact hforce.1
    · rw [SameDecision, hsame]
  · exact ⟨record, (if_neg hd).trans hfind, hforce, rfl⟩

end Vouched

theorem ofStores_vouched : OfStores Vouched := fun _ _ hstores h =>
  h.sameStores (h.consistent.of_stores hstores)
    (congrArg (fun stores => stores.ledger.byDecision) hstores)
    (congrArg Stores.history hstores)

theorem preserved_vouched : Preserved Vouched where
  refusal _ request claim reason evidence recordAttempt h :=
    h.refusal request claim reason evidence recordAttempt
  grant _ _ _ _ hverdict h := h.grant hverdict
  release _ d reason explanation _ h := h.release d reason .revoked explanation
  mark _ d _ hf htruthful h := h.mark d hf htruthful
  note core record hnote h :=
    h.sameStores (Consistent.preserved.note core record hnote h.consistent) rfl rfl
  compact core h := by
    have hconsistent := Consistent.preserved.compact core h.consistent
    rw [compactLocked_snd] at hconsistent ⊢
    exact h.sameStores hconsistent rfl rfl
  clearFlags core h := by
    refine h.carry (Consistent.preserved.clearFlags core h.consistent) (fun d es' hes' => ?_)
      fun _ record _ hfind hforce => ⟨record, hfind, hforce, rfl⟩
    change (core.ledger.setFlags false).byDecision[d]? = some es' at hes'
    rw [getElem?_byDecision_setFlags] at hes'
    obtain ⟨es, hes, rfl⟩ := Option.map_eq_some_iff.mp hes'
    exact ⟨es, fun _ => false, hes, rfl⟩
  tidy core core' hstores _ h := ofStores_vouched core core' hstores h

theorem Vouched.starting (h : core.Starting) : core.Vouched := by
  obtain ⟨config, rfl⟩ | ⟨config, options, disk, rfl⟩ := h
  · exact ⟨Consistent.fresh config, fun d es hes => by simp [fresh] at hes⟩
  · obtain ⟨hconsistent, -, hnone⟩ := Consistent.boot_new config options disk
    exact ⟨hconsistent, fun d es hes => by simp [hnone] at hes⟩

theorem vouched_of_reachable
    (h : TransitionSystem.Reachable Starting after (fun _ _ => True) core) : core.Vouched :=
  h.invariant (fun _ => Vouched.starting) fun core call hvouched _ => by
    have hconsistent : (core.onDisk call.disk).Consistent :=
      hvouched.consistent.mono rfl rfl le_rfl le_rfl
    exact preserved_vouched.perform ofStores_vouched (hvouched.sameStores hconsistent rfl rfl)
      call.operation

end EngineCore

end AdmissionFabric
