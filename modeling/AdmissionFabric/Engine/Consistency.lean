import AdmissionFabric.Engine.EvaluateSpec
import AdmissionFabric.Engine.Transactions

/-!
# Consistency of the books

The stores of an engine agree with each other: the ledger is exact, the history is indexed, every
record is below the counters, and every decision that holds load has a record that admitted it.
Every operation keeps this, whatever its writes do.
-/

namespace AdmissionFabric

open AdmittedLoadLedger

namespace DecisionHistory

variable {history : DecisionHistory}

theorem trimHistory_retires (history : DecisionHistory) (ledger : AdmittedLoadLedger) :
    Retires ledger history (EngineCore.trimHistory history ledger) := by
  unfold EngineCore.trimHistory
  split
  · exact trim_retires history ledger
  · exact Retires.refl ledger history

theorem trimHistory_eq_self (h : history.records.size ≤ history.capacity)
    (ledger : AdmittedLoadLedger) : EngineCore.trimHistory history ledger = history := by
  rw [EngineCore.trimHistory, if_neg]
  simpa [needsTrim] using h

theorem trimHistory_insert_of_lt (hroom : history.records.size < history.capacity)
    (record : DecisionRecord) (ledger : AdmittedLoadLedger) :
    EngineCore.trimHistory (history.insert record) ledger = history.insert record := by
  refine trimHistory_eq_self ?_ ledger
  rw [capacity_insert]
  exact (size_insert_le history record).trans hroom

theorem find_modify (history : DecisionHistory) (d : AdmissionDecisionId)
    (f : DecisionRecord → DecisionRecord) (d' : AdmissionDecisionId) :
    (history.modify d f).find d' =
      if d = d' then (history.find d).map fun record => { f record with audit := record.audit }
      else history.find d' := by
  unfold modify
  cases h : history.find d with
  | none =>
    by_cases hd : d = d'
    · subst hd
      simp [h]
    · simp [hd]
  | some existing => rw [find_update, h, Option.map_some, Option.map_some]

theorem Indexed.modify (hidx : history.Indexed) (d : AdmissionDecisionId)
    {f : DecisionRecord → DecisionRecord} (hf : ∀ record, (f record).decision = record.decision) :
    (history.modify d f).Indexed := by
  unfold DecisionHistory.modify
  cases h : history.find d with
  | none => exact hidx
  | some existing => exact hidx.update ((hf existing).trans (hidx.listed d existing h).1)

end DecisionHistory

namespace EngineCore

/-- The stores agree with each other. -/
structure Consistent (core : EngineCore) : Prop where
  wellFormed : core.ledger.WellFormed
  indexed : core.history.Indexed
  next_pos : 0 < core.nextDecisionSequence
  below : ∀ d record, core.history.find d = some record →
    d < core.nextDecisionSequence ∧ record.audit < core.audit
  admitting : ∀ d, core.ledger.holds d = true →
    ∃ record, core.history.find d = some record ∧ record.outcome.isAdmitting = true

theorem Consistent.fresh (config : EngineConfig) : (EngineCore.fresh config).Consistent where
  wellFormed := AdmittedLoadLedger.WellFormed.empty
  indexed := DecisionHistory.Indexed.empty config.historyCapacity
  next_pos := Nat.one_pos
  below d record h := by simp [EngineCore.fresh, DecisionHistory.find] at h
  admitting d h := by simp [EngineCore.fresh, AdmittedLoadLedger.holds] at h

theorem nodup_amountsOf {authority : Authority} {ledger : AdmittedLoadLedger}
    {request : AdmissionRequest} {grant : Grant}
    (h : authority.evaluate ledger request = .ok grant) :
    ((amountsOf grant).map Prod.fst).Nodup := by
  rw [map_fst_amountsOf]
  exact Authority.nodup_targets_of_evaluate h

namespace Consistent

variable {core core' : EngineCore}

/-! ### Changes that keep the books -/

theorem mono (h : core.Consistent) (hledger : core'.ledger = core.ledger)
    (hhistory : core'.history = core.history)
    (hnext : core.nextDecisionSequence ≤ core'.nextDecisionSequence)
    (haudit : core.audit ≤ core'.audit) : core'.Consistent where
  wellFormed := hledger ▸ h.wellFormed
  indexed := hhistory ▸ h.indexed
  next_pos := Nat.lt_of_lt_of_le h.next_pos hnext
  below d record hfind := by
    have hbelow := h.below d record (hhistory ▸ hfind)
    lia
  admitting d hd := by
    rw [hhistory]
    exact h.admitting d (hledger ▸ hd)

theorem of_stores (h : core.Consistent) (hstores : core'.stores = core.stores) :
    core'.Consistent :=
  h.mono (congrArg Stores.ledger hstores) (congrArg Stores.history hstores)
    (Nat.le_of_eq (congrArg Stores.nextDecisionSequence hstores).symm)
    (Nat.le_of_eq (congrArg Stores.audit hstores).symm)

theorem withLedger (h : core.Consistent) {ledger : AdmittedLoadLedger} (hwf : ledger.WellFormed)
    (hholds : ∀ d, ledger.holds d = true → core.ledger.holds d = true) :
    ({ core with ledger } : EngineCore).Consistent :=
  ⟨hwf, h.indexed, h.next_pos, h.below, fun d hd => h.admitting d (hholds d hd)⟩

theorem modify (h : core.Consistent) (d : AdmissionDecisionId)
    {f : DecisionRecord → DecisionRecord} (hf : ∀ record, SameDecision record (f record)) :
    ({ core with history := core.history.modify d f } : EngineCore).Consistent := by
  have hkept : ∀ d' record, (core.history.modify d f).find d' = some record →
      ∃ existing, core.history.find d' = some existing ∧ record.audit = existing.audit := by
    intro d' record hfind
    rw [DecisionHistory.find_modify] at hfind
    split at hfind
    · rename_i heq
      subst heq
      obtain ⟨existing, hexisting, rfl⟩ := Option.map_eq_some_iff.mp hfind
      exact ⟨existing, hexisting, rfl⟩
    · exact ⟨record, hfind, rfl⟩
  refine ⟨h.wellFormed, h.indexed.modify d fun record => ?_, h.next_pos, ?_, ?_⟩
  · rw [hf record]
  · intro d' record hfind
    obtain ⟨existing, hexisting, haudit⟩ := hkept d' record hfind
    rw [haudit]
    exact h.below d' existing hexisting
  · intro d' hd'
    obtain ⟨record, hfind, hadmitting⟩ := h.admitting d' hd'
    by_cases hdd : d = d'
    · subst hdd
      refine ⟨{ f record with audit := record.audit }, ?_, ?_⟩
      · rw [DecisionHistory.find_modify, if_pos rfl, hfind, Option.map_some]
      · have hsame := congrArg DecisionRecord.outcome (hf record)
        simpa [hsame] using hadmitting
    · refine ⟨record, ?_, hadmitting⟩
      change (core.history.modify d f).find d' = _
      rw [DecisionHistory.find_modify, if_neg hdd]
      exact hfind

theorem settle (h : core.Consistent) (core' : EngineCore) (record : DecisionRecord)
    (hdecision : record.decision = core.nextDecisionSequence) (haudit : record.audit = core.audit)
    (hhistory : core'.history = core.history)
    (hnext : core'.nextDecisionSequence = core.nextDecisionSequence + 1)
    (haudit' : core'.audit = core.audit + 1) (hwf : core'.ledger.WellFormed)
    (hholds : ∀ d, core'.ledger.holds d = true → core.ledger.holds d = true ∨
      d = record.decision ∧ record.outcome.isAdmitting = true)
    (decision : AdmissionDecision) (attempt : Option AttemptRecord) :
    (core'.settle decision record attempt).Consistent := by
  have hne : record.decision ≠ 0 := by
    have := h.next_pos
    lia
  have hfresh : core.history.find record.decision = none := by
    cases hfind : core.history.find record.decision with
    | none => rfl
    | some existing =>
      have := (h.below _ _ hfind).1
      lia
  have hunused : core.history.auditIndex[record.audit]? = none := by
    cases hindex : core.history.auditIndex[record.audit]? with
    | none => rfl
    | some d =>
      obtain ⟨existing, hexisting, hsame⟩ := h.indexed.recorded _ _ hindex
      have := (h.below _ _ hexisting).2
      lia
  have hindexed := h.indexed.insert hne hfresh hunused
  have hret := DecisionHistory.trimHistory_retires (core.history.insert record) core'.ledger
  have hstored : (core'.settle decision record attempt).history =
      trimHistory (core.history.insert record) core'.ledger := by
    change trimHistory (core'.history.insert record) core'.ledger = _
    rw [hhistory]
  refine ⟨hwf, ?_, ?_, ?_, ?_⟩
  · rw [hstored]
    exact hret.indexed hindexed
  · change 0 < core'.nextDecisionSequence
    lia
  · intro d r hfind
    rw [hstored] at hfind
    change d < core'.nextDecisionSequence ∧ r.audit < core'.audit
    have hold := hret.find_of_find d r hfind
    rw [DecisionHistory.find_insert hne] at hold
    split at hold
    · lia
    · have := h.below d r hold
      lia
  · intro d hd
    change core'.ledger.holds d = true at hd
    rw [hstored, hret.find_of_holds d hd, DecisionHistory.find_insert hne]
    rcases hholds d hd with hold | ⟨rfl, hadmitting⟩
    · obtain ⟨r, hr, hadmitting⟩ := h.admitting d hold
      rw [if_neg fun heq => by rw [heq, hr] at hfresh; simp at hfresh]
      exact ⟨r, hr, hadmitting⟩
    · exact ⟨record, if_pos rfl, hadmitting⟩

/-! ### Transactions -/

theorem refusal (h : core.Consistent) (request : AdmissionRequest) (claim : ClaimContext)
    (reason : Refusal) (evidence : Option Evidence) (recordAttempt : Bool) :
    (core.consumeIdentity.finishRefusal (core.refusal request claim reason evidence) request
      recordAttempt).2.Consistent := by
  generalize hcall : core.consumeIdentity.finishRefusal _ _ _ = outcome
  cases finishRefusal_effect hcall with
  | unwritten _ => exact h.mono rfl rfl (Nat.le_succ _) (Nat.le_succ _)
  | @settled journal _ =>
    exact h.settle { core.consumeIdentity with journal } _
      (core.decision_refusal request claim reason evidence)
      (core.audit_refusal request claim reason evidence) rfl rfl rfl h.wellFormed
      (fun d hd => Or.inl hd) _ _

theorem grant (h : core.Consistent) {request : AdmissionRequest} {claim : ClaimContext}
    {grant : Grant} (hverdict : core.verdict request claim = .grant grant) :
    (core.consumeIdentity.finishAdmission (core.admission request claim grant) request
      (amountsOf grant)).2.Consistent := by
  have heval := (verdict_eq_grant hverdict).2.2.2
  have hnodup := nodup_amountsOf heval
  have hreserved : ∀ {result : Except Status Unit} {ledger : AdmittedLoadLedger},
      core.ledger.reserve core.nextDecisionSequence request.demand core.epoch
        (core.admission request claim grant).boundCapacityGeneration grant.evidence.path
        (amountsOf grant) = (result, ledger) → ledger.WellFormed := by
    intro result ledger hreserve
    have hwf := h.wellFormed.reserve core.nextDecisionSequence request.demand core.epoch
      (core.admission request claim grant).boundCapacityGeneration grant.evidence.path hnodup
    rwa [hreserve] at hwf
  have hconsumed : core.consumeIdentity.Consistent :=
    h.mono rfl rfl (Nat.le_succ _) (Nat.le_succ _)
  generalize hcall : core.consumeIdentity.finishAdmission _ _ _ = outcome
  cases finishAdmission_effect hcall with
  | unprepared _ => exact hconsumed.mono rfl rfl le_rfl le_rfl
  | unreserved _ hreserve =>
    obtain ⟨hby, -⟩ := reserve_of_error hnodup hreserve
    have hkept := hconsumed.withLedger (hreserved hreserve) fun d hd => by
      rw [AdmittedLoadLedger.holds, hby] at hd
      exact hd
    exact hkept.mono rfl rfl le_rfl le_rfl
  | uncommitted _ hreserve _ =>
    obtain ⟨es, released, hrelease, hby, -⟩ :=
      release_of_reserve hnodup hreserve
    have hwf' := (hreserved hreserve).release hrelease
    have hkept := hconsumed.withLedger hwf' fun d hd => by
      rw [AdmittedLoadLedger.holds, hby] at hd
      exact hd
    simp only [hrelease]
    exact hkept.mono rfl rfl le_rfl le_rfl
  | @committed _ journal' ledger _ hreserve _ =>
    rw [compactIfNeededLocked_snd]
    have hholds : ∀ d, ledger.holds d = true → core.ledger.holds d = true ∨
        d = core.nextDecisionSequence ∧ grant.outcome.isAdmitting = true := by
      intro d hd
      exact (holds_of_reserve hreserve hd).imp id
        fun heq => ⟨heq, Authority.isAdmitting_of_evaluate heval⟩
    have hsettled := h.settle { core.consumeIdentity with journal := journal', ledger }
      (core.consumeIdentity.liveRecord (core.admission request claim grant))
      rfl rfl rfl rfl rfl (hreserved hreserve) hholds (core.admission request claim grant)
      (some (core.consumeIdentity.attemptOf request (core.admission request claim grant)))
    exact hsettled.mono rfl rfl le_rfl le_rfl

theorem release (h : core.Consistent) (d : AdmissionDecisionId) (reason : RevocationReason)
    (state : RevalidationState) (explanation : Explanation) :
    (core.releaseDecisionLocked d reason state explanation).2.Consistent := by
  have hwithout : ∀ {es : List LedgerEntry} {ledger : AdmittedLoadLedger},
      core.ledger.release d = .ok (es, ledger) →
        ({ core with ledger } : EngineCore).Consistent := by
    intro es ledger hrelease
    exact h.withLedger (h.wellFormed.release hrelease) fun d' hd' =>
      holds_of_release hrelease hd'
  generalize hcall : core.releaseDecisionLocked d reason state explanation = outcome
  cases releaseDecisionLocked_effect hcall with
  | unheld _ => exact h
  | unwritten _ _ | stuck _ _ _ => exact h.mono rfl rfl le_rfl le_rfl
  | unmarked _ _ hrelease _ =>
    exact (hwithout hrelease).mono rfl rfl le_rfl le_rfl
  | released _ _ hrelease _ =>
    have hmarked := (hwithout hrelease).modify d (f := fun record =>
      { record with state, reason, ledgerLive := false }) fun record => rfl
    exact ⟨hmarked.wellFormed, ⟨hmarked.indexed.listed, hmarked.indexed.recorded⟩,
      hmarked.next_pos, hmarked.below, hmarked.admitting⟩

theorem preserved : Preserved Consistent where
  refusal _ request claim reason evidence recordAttempt h :=
    h.refusal request claim reason evidence recordAttempt
  grant _ _ _ _ hverdict h := h.grant hverdict
  release _ d reason explanation _ h := h.release d reason .revoked explanation
  mark _ d _ hf _ h := h.modify d hf
  note _ _ _ h := h.mono rfl rfl le_rfl le_rfl
  compact core h := by
    rw [compactLocked_snd]
    exact h.mono rfl rfl le_rfl le_rfl
  clearFlags _ h := h.withLedger (h.wellFormed.setFlags false) fun d hd => by
    rwa [AdmittedLoadLedger.clearRevalidationFlags, holds_setFlags] at hd
  tidy _ _ hstores _ h := h.of_stores hstores

theorem perform (h : core.Consistent) (operation : Operation) :
    (core.perform operation).2.Consistent :=
  preserved.perform (fun _ _ hstores hcore => hcore.of_stores hstores) h operation

end Consistent

end EngineCore

end AdmissionFabric
