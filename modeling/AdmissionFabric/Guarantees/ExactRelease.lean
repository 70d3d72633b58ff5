import AdmissionFabric.Engine.JournalOrder

/-!
# Exactly-once release

Load leaves the ledger through explicit revocations, through revalidations and through enforcement
passes. Each of them reports what it released: a result with `ledgerReleased`, or a reconciliation
report that lists the revoked decisions.

Within one lifetime of an engine no decision is ever reported twice. A call that reports decisions
removes exactly the entries that were reserved for them when they were admitted, leaves the entries
of every other decision alone, and lowers the load of each resource by exactly their amounts.
-/

namespace AdmissionFabric

variable {es' : List LedgerEntry} {es : List LedgerEntry} {d : AdmissionDecisionId}

namespace AdmittedLoadLedger

variable {ds : List AdmissionDecisionId} {ledger' : AdmittedLoadLedger}

/-! ### Releases in a row -/

/-- Releases of decisions, one after the other. -/
inductive ReleaseChain (ledger : AdmittedLoadLedger) :
    List AdmissionDecisionId → AdmittedLoadLedger → Prop
  | nil : ReleaseChain ledger [] ledger
  | release {ds : List AdmissionDecisionId} {ledger' ledger'' : AdmittedLoadLedger}
      {d : AdmissionDecisionId} {es : List LedgerEntry} (h : ReleaseChain ledger ds ledger')
      (hrelease : ledger'.release d = .ok (es, ledger'')) : ReleaseChain ledger (ds ++ [d]) ledger''

theorem ReleaseChain.trans {ledger ledger'' : AdmittedLoadLedger}
    {ds' : List AdmissionDecisionId} (h : ReleaseChain ledger ds ledger')
    (h' : ReleaseChain ledger' ds' ledger'') : ReleaseChain ledger (ds ++ ds') ledger'' := by
  induction h' with
  | nil => rwa [List.append_nil]
  | release _ hrelease ih =>
    rw [← List.append_assoc]
    exact ih.release hrelease

theorem ReleaseChain.single {ledger : AdmittedLoadLedger}
    (h : ledger.release d = .ok (es, ledger')) : ReleaseChain ledger [d] ledger' :=
  ReleaseChain.nil.release h

/-- Exactly the entries of some decisions are gone. -/
structure Removed (ledger : AdmittedLoadLedger) (ds : List AdmissionDecisionId)
    (ledger' : AdmittedLoadLedger) : Prop where
  nodup : ds.Nodup
  holds_of_mem : ∀ d ∈ ds, ledger.holds d = true
  byDecision_eq : ∀ d : AdmissionDecisionId,
    ledger'.byDecision[d]? = if d ∈ ds then none else ledger.byDecision[d]?
  admitted_eq : ∀ r, (ledger'.admitted r).toNat +
    (ds.map fun d => loadOn (ledger.held d) r).sum = (ledger.admitted r).toNat

theorem WellFormed.removed {ledger : AdmittedLoadLedger} (hwf : ledger.WellFormed)
    (h : ReleaseChain ledger ds ledger') : ledger'.WellFormed ∧ Removed ledger ds ledger' := by
  induction h with
  | nil => exact ⟨hwf, List.nodup_nil, nofun, fun d => by simp, fun r => by simp⟩
  | @release ds ledger' ledger'' d es _ hrelease ih =>
    obtain ⟨hwf', hremoved⟩ := ih
    obtain ⟨-, hd, -, rfl⟩ := release_eq_ok_iff.mp hrelease
    have hlook := hremoved.byDecision_eq d
    rw [hd] at hlook
    have hnot : d ∉ ds := fun hmem => by rw [if_pos hmem] at hlook; cases hlook
    rw [if_neg hnot] at hlook
    refine ⟨hwf'.without hd, ?_, ?_, ?_, ?_⟩
    · exact List.nodup_append.mpr ⟨hremoved.nodup, List.nodup_singleton d, by
        rintro a ha b hb rfl
        exact hnot (List.mem_singleton.mp hb ▸ ha)⟩
    · intro d' hd'
      rcases List.mem_append.mp hd' with hd' | hd'
      · exact hremoved.holds_of_mem d' hd'
      · rw [List.mem_singleton.mp hd', holds, ← hlook]
        rfl
    · intro d'
      rw [getElem?_byDecision_without, hremoved.byDecision_eq]
      by_cases hdd : d = d'
      · simp [hdd]
      · simp [hdd, Ne.symm hdd]
    · intro r
      have hlast := hwf'.toNat_admitted_without hd r
      have hbefore := hremoved.admitted_eq r
      rw [List.map_append, List.sum_append, List.map_cons, List.map_nil, List.sum_cons,
        List.sum_nil, held_of_getElem? hlook.symm]
      omega

end AdmittedLoadLedger

namespace EngineCore

open AdmittedLoadLedger

variable {reason : RevocationReason} {snapshot : CapacitySnapshot} {report' : ReconciliationReport}
    {report : ReconciliationReport} {core : EngineCore}

/-! ### The last report -/

/-- The engine with another report. -/
def withReport (core : EngineCore) (report : ReconciliationReport) : EngineCore :=
  { core with reconciliation := report }

/-- An outcome with another report. -/
def Outcome.withReport {α : Type} (outcome : Outcome α) (report : ReconciliationReport) :
    Outcome α :=
  (outcome.1, outcome.2.withReport report)

theorem Outcome.andThen_withReport {α β : Type} {outcome outcome' : Outcome α}
    {f : α → EngineCore → Outcome β} (h : outcome' = Outcome.withReport outcome report)
    (hf : ∀ a core, f a (core.withReport report) = Outcome.withReport (f a core) report) :
    outcome'.andThen f = Outcome.withReport (outcome.andThen f) report := by
  obtain ⟨status | a, core⟩ := outcome
  · rw [h]
    rfl
  · rw [h]
    exact hf a core

theorem releaseDecisionLocked_withReport (core : EngineCore) (d : AdmissionDecisionId)
    (reason : RevocationReason) (state : RevalidationState) (explanation : Explanation)
    (report : ReconciliationReport) :
    (core.withReport report).releaseDecisionLocked d reason state explanation =
      Outcome.withReport (core.releaseDecisionLocked d reason state explanation) report := by
  have hledger : ∀ core : EngineCore, (core.withReport report).ledger = core.ledger :=
    fun _ => rfl
  unfold releaseDecisionLocked
  rw [hledger]
  by_cases hheld : (!core.ledger.holds d) = true
  · simp only [hheld, ↓reduceIte]
    rfl
  · simp only [hheld, Bool.false_eq_true, ↓reduceIte]
    refine Outcome.andThen_withReport rfl fun _ core => ?_
    rw [hledger]
    cases core.ledger.release d with
    | error status => rfl
    | ok released => exact Outcome.andThen_withReport rfl fun _ _ => rfl

theorem enforceRecord_withReport (held : AdmissionDecisionId → List LedgerEntry)
    (reason : RevocationReason) (report : ReconciliationReport) (record : DecisionRecord)
    (core : EngineCore) (last : ReconciliationReport) :
    enforceRecord held reason report record (core.withReport last) =
      Outcome.withReport (enforceRecord held reason report record core) last := by
  have hfits : (core.withReport last).checkFits (held record.decision) =
      core.checkFits (held record.decision) := rfl
  unfold enforceRecord
  rw [hfits]
  by_cases hskip : !record.outcome.isAdmitting ∨ held record.decision = [] ∨
      record.decision ∈ report.revokedDecisions
  · simp only [hskip, ↓reduceIte]
    rfl
  · simp only [hskip, ↓reduceIte]
    cases core.checkFits (held record.decision) with
    | ok _ => rfl
    | error note =>
      exact Outcome.andThen_withReport (core.releaseDecisionLocked_withReport _ _ _ _ _)
        fun _ _ => rfl

theorem enforceRecords_withReport (held : AdmissionDecisionId → List LedgerEntry)
    (reason : RevocationReason) (report : ReconciliationReport) (records : List DecisionRecord)
    (core : EngineCore) (last : ReconciliationReport) :
    enforceRecords held reason report records (core.withReport last) =
      Outcome.withReport (enforceRecords held reason report records core) last := by
  induction records generalizing report core with
  | nil => rfl
  | cons record rest ih =>
    exact Outcome.andThen_withReport
      (enforceRecord_withReport held reason report record core last) ih

theorem enforceAccountingLocked_of_none (hcapacity : core.capacity = none)
    (trigger : EnforcementTrigger) :
    core.enforceAccountingLocked trigger = (.ok (), core.withReport { trigger }) := by
  simp only [enforceAccountingLocked, hcapacity]
  rfl

theorem enforceAccountingLocked_of_some (hcapacity : core.capacity = some snapshot)
    (trigger : EnforcementTrigger) :
    core.enforceAccountingLocked trigger = (enforceRecords core.ledger.entriesOf trigger.reason
      { performed := true, trigger } core.history.inAuditOrder.reverse core).andThen
        fun report core => core.finishEnforcement snapshot report := by
  simp only [enforceAccountingLocked, hcapacity]

theorem enforceAccountingLocked_withReport (hcapacity : core.capacity = some snapshot)
    (trigger : EnforcementTrigger) (last : ReconciliationReport) :
    (core.withReport last).enforceAccountingLocked trigger = (Outcome.withReport (enforceRecords
      core.ledger.entriesOf trigger.reason { performed := true, trigger }
      core.history.inAuditOrder.reverse core) last).andThen
        fun report core => core.finishEnforcement snapshot report := by
  have hsame : (core.withReport last).capacity = some snapshot := hcapacity
  rw [← enforceRecords_withReport]
  exact enforceAccountingLocked_of_some hsame trigger

/-! ### What a pass releases -/

theorem chain_of_enforceRecord {held : AdmissionDecisionId → List LedgerEntry}
    {record : DecisionRecord} {core' : EngineCore}
    (h : enforceRecord held reason report record core = (.ok report', core')) :
    ∃ ds, report'.revokedDecisions = report.revokedDecisions ++ ds ∧
      ReleaseChain core.ledger ds core'.ledger := by
  unfold enforceRecord at h
  split at h
  · obtain ⟨hreport, rfl⟩ := Prod.mk.inj h
    exact ⟨[], by rw [← Except.ok.inj hreport, List.append_nil], .nil⟩
  · split at h
    · obtain ⟨hreport, rfl⟩ := Prod.mk.inj h
      exact ⟨[], by rw [← Except.ok.inj hreport, List.append_nil], .nil⟩
    · simp only at h
      generalize hcall : core.releaseDecisionLocked record.decision reason .revoked _ = outcome at h
      cases releaseDecisionLocked_effect hcall with
      | unheld | unwritten | stuck | unmarked => cases h
      | released _ _ hrelease _ =>
        obtain ⟨hreport, rfl⟩ := Prod.mk.inj h
        exact ⟨[record.decision], by rw [← Except.ok.inj hreport]; rfl, .single hrelease⟩

theorem chain_of_enforceRecords {held : AdmissionDecisionId → List LedgerEntry}
    {records : List DecisionRecord} {core' : EngineCore}
    (h : enforceRecords held reason report records core = (.ok report', core')) :
    ∃ ds, report'.revokedDecisions = report.revokedDecisions ++ ds ∧
      ReleaseChain core.ledger ds core'.ledger := by
  induction records generalizing report core with
  | nil =>
    obtain ⟨hreport, rfl⟩ := Prod.mk.inj h
    exact ⟨[], by rw [← Except.ok.inj hreport, List.append_nil], .nil⟩
  | cons record rest ih =>
    rw [enforceRecords] at h
    rcases hfirst : enforceRecord held reason report record core with ⟨status | report₁, core₁⟩
    · rw [hfirst] at h
      cases h
    · rw [hfirst, Outcome.andThen_ok] at h
      obtain ⟨ds, hds, hchain⟩ := chain_of_enforceRecord hfirst
      obtain ⟨ds', hds', hchain'⟩ := ih h
      exact ⟨ds ++ ds', by rw [hds', hds, List.append_assoc], hchain.trans hchain'⟩

theorem chain_of_enforceAccountingLocked (core : EngineCore) (trigger : EnforcementTrigger)
    (h : ((core.withReport {}).enforceAccountingLocked trigger).2.reconciliation.revokedDecisions ≠
      []) :
    ∃ ledger, ReleaseChain core.ledger
        ((core.withReport {}).enforceAccountingLocked trigger).2.reconciliation.revokedDecisions
        ledger ∧
      (core.enforceAccountingLocked trigger).2.ledger = ledger.clearRevalidationFlags := by
  cases hcapacity : core.capacity with
  | none =>
    have hclear : (core.withReport {}).capacity = none := hcapacity
    rw [enforceAccountingLocked_of_none hclear] at h
    exact absurd rfl h
  | some snapshot =>
    rw [enforceAccountingLocked_withReport hcapacity] at h ⊢
    rw [enforceAccountingLocked_of_some hcapacity]
    rcases hrecords : enforceRecords core.ledger.entriesOf trigger.reason
      { performed := true, trigger } core.history.inAuditOrder.reverse core with
        ⟨status | report, core'⟩
    · rw [hrecords] at h
      exact absurd rfl h
    · obtain ⟨ds, hds, hchain⟩ := chain_of_enforceRecords hrecords
      have hlisted : report.revokedDecisions = ds := hds
      rw [← hlisted] at hchain
      simp only [Outcome.withReport, Outcome.andThen_ok, finishEnforcement]
      split <;> exact ⟨core'.ledger, hchain, rfl⟩

/-! ### What a call reports -/

/-- The decision that a result reports as released. -/
def releasedBy : Answer → List AdmissionDecisionId
  | .revalidation (.ok result) => if result.ledgerReleased then [result.decision] else []
  | _ => []

/-- The decisions that a call reports as released: in its result, or in the report of the
enforcement pass that it runs. -/
def reportedBy (core : EngineCore) (call : Call) : List AdmissionDecisionId :=
  match call.operation with
  | .publishPolicy _ | .publishCapacity _ | .publishReservations _ =>
    ((core.withReport {}).after call).reconciliation.revokedDecisions
  | operation => releasedBy ((core.onDisk call.disk).perform operation).1

/-- A call releases a list of decisions, if the list is not empty. -/
def Releases (core : EngineCore) (ds : List AdmissionDecisionId) (core' : EngineCore) : Prop :=
  ds ≠ [] → ∃ ledger, ReleaseChain core.ledger ds ledger ∧
    (core'.ledger = ledger ∨ core'.ledger = ledger.clearRevalidationFlags)

private theorem releases_publish {checked : Except Status Bool} {install cleared : Outcome Unit}
    (h : core.Releases cleared.2.reconciliation.revokedDecisions install.2) :
    core.Releases ((core.withReport {}).publish checked cleared).2.reconciliation.revokedDecisions
      (core.publish checked install).2 := by
  unfold publish
  cases checked with
  | error status => exact fun hne => absurd rfl hne
  | ok changed =>
    cases changed with
    | false => exact fun hne => absurd rfl hne
    | true => exact h

theorem releases_enforce (core : EngineCore) (trigger : EnforcementTrigger) :
    core.Releases
      ((core.withReport {}).enforceAccountingLocked trigger).2.reconciliation.revokedDecisions
      (core.enforceAccountingLocked trigger).2 := by
  intro h
  obtain ⟨ledger, hchain, hledger⟩ := chain_of_enforceAccountingLocked core trigger h
  exact ⟨ledger, hchain, Or.inr hledger⟩

theorem releases_publishCapacity (core : EngineCore) (snapshot : CapacitySnapshot) :
    core.Releases
      ((core.withReport {}).publishCapacity snapshot).2.reconciliation.revokedDecisions
      (core.publishCapacity snapshot).2 := by
  unfold publishCapacity
  split
  · exact fun hne => absurd rfl hne
  · rename_i hvalid
    exact releases_publish ((core.withCapacity snapshot hvalid).releases_enforce _)

theorem releases_publishReservations (core : EngineCore) (snapshot : ReservationSnapshot) :
    core.Releases
      ((core.withReport {}).publishReservations snapshot).2.reconciliation.revokedDecisions
      (core.publishReservations snapshot).2 := by
  unfold publishReservations
  split
  · exact fun hne => absurd rfl hne
  · rename_i hvalid
    exact releases_publish ((core.withReservations snapshot hvalid).releases_enforce _)

theorem releases_publishPolicy (core : EngineCore) (policy : AdmissionPolicy) :
    core.Releases ((core.withReport {}).publishPolicy policy).2.reconciliation.revokedDecisions
      (core.publishPolicy policy).2 := by
  unfold publishPolicy
  split
  · exact fun hne => absurd rfl hne
  · rename_i hvalid
    refine releases_publish ?_
    have hwrite : (core.withReport {}).writeRecord (.policyConfig policy) =
      Outcome.withReport (core.writeRecord (.policyConfig policy)) {} := rfl
    have hledger : (core.writeRecord (.policyConfig policy)).2.ledger = core.ledger := rfl
    rw [hwrite]
    generalize core.writeRecord (.policyConfig policy) = outcome at hledger ⊢
    obtain ⟨status | ⟨⟩, written⟩ := outcome
    · exact fun hne => absurd rfl hne
    · have hpass := (written.withPolicy policy hvalid).releases_enforce .policyPublication
      have hsame : (written.withPolicy policy hvalid).ledger = core.ledger := hledger
      rw [Releases, hsame] at hpass
      exact hpass

theorem releases_releaseFor {result : RevalidationResult} :
    core.Releases (releasedBy (.revalidation (core.releaseFor result).1))
      (core.releaseFor result).2 := by
  unfold releaseFor
  generalize hcall : core.releaseDecisionLocked _ _ _ _ = outcome
  cases releaseDecisionLocked_effect hcall with
  | unheld | unwritten | stuck | unmarked => exact fun hne => absurd rfl hne
  | released _ _ hrelease _ => exact fun _ => ⟨_, .single hrelease, Or.inl rfl⟩

theorem releases_revokeLocked (core : EngineCore) (d : AdmissionDecisionId)
    (reason : RevocationReason) (claim : ClaimContext) :
    core.Releases (releasedBy (.revalidation (core.revokeLocked d reason claim).1))
      (core.revokeLocked d reason claim).2 := by
  unfold revokeLocked
  split
  · exact fun hne => absurd rfl hne
  · split
    · exact fun hne => absurd rfl hne
    · split
      · exact fun hne => absurd rfl hne
      · exact releases_releaseFor

theorem releases_revalidateLocked (core : EngineCore) (d : AdmissionDecisionId)
    (claim : ClaimContext) :
    core.Releases (releasedBy (.revalidation (core.revalidateLocked d claim).1))
      (core.revalidateLocked d claim).2 := by
  unfold revalidateLocked
  split
  · exact fun hne => absurd rfl hne
  · split
    · exact fun hne => absurd rfl hne
    · simp only
      split
      · exact fun hne => absurd rfl hne
      · exact fun hne => absurd rfl hne
      · exact releases_releaseFor
      · exact fun hne => absurd rfl hne
      · exact fun hne => absurd rfl hne
      · unfold markInvalidated
        obtain ⟨status | ⟨⟩, written⟩ := core.writeRecord _ <;> exact fun hne => absurd rfl hne

theorem releases_reportedBy (core : EngineCore) (call : Call) :
    core.Releases (core.reportedBy call) (core.after call) := by
  obtain ⟨operation, disk⟩ := call
  cases operation
  case publishPolicy policy => exact (core.onDisk disk).releases_publishPolicy policy
  case publishCapacity snapshot => exact (core.onDisk disk).releases_publishCapacity snapshot
  case publishReservations snapshot =>
    exact (core.onDisk disk).releases_publishReservations snapshot
  case revoke d reason claim => exact (core.onDisk disk).releases_revokeLocked d reason claim
  case revalidate d claim => exact (core.onDisk disk).releases_revalidateLocked d claim
  all_goals exact fun hne => absurd rfl hne

end EngineCore

/-! ### What a call keeps -/

/-- The same entries, or those entries with their flags cleared. -/
def SameLoad (es es' : List LedgerEntry) : Prop :=
  es' = es ∨ es' = es.map fun e => { e with requiresRevalidation := false }

theorem SameLoad.trans {es'' : List LedgerEntry} (h : SameLoad es es') (h' : SameLoad es' es'') :
    SameLoad es es'' := by
  rcases h with rfl | rfl
  · exact h'
  · refine Or.inr ?_
    rcases h' with rfl | rfl
    · rfl
    · simp

theorem SameLoad.loadOn_eq (h : SameLoad es es') (resource : ResourceId) :
    AdmittedLoadLedger.loadOn es' resource = AdmittedLoadLedger.loadOn es resource := by
  rcases h with rfl | rfl
  · rfl
  · simp only [AdmittedLoadLedger.loadOn, List.filter_map, List.map_map, Function.comp_def]

namespace EngineCore

open AdmittedLoadLedger TransitionSystem SmallFabric

/-- What older decisions hold has been held by the engine that this one came out of. -/
structure Continues (next : AdmissionDecisionId) (ledger : AdmittedLoadLedger)
    (core : EngineCore) : Prop where
  wellFormed : core.ledger.WellFormed
  below : ∀ d, core.ledger.holds d = true → d < core.nextDecisionSequence
  next_le : next ≤ core.nextDecisionSequence
  kept : ∀ d < next, core.ledger.holds d = true →
    ledger.holds d = true ∧ SameLoad (ledger.held d) (core.ledger.held d)

namespace Continues

variable {core core' : EngineCore} {next : AdmissionDecisionId} {ledger : AdmittedLoadLedger}

theorem refl (hwf : core.ledger.WellFormed)
    (hbelow : ∀ d, core.ledger.holds d = true → d < core.nextDecisionSequence) :
    core.Continues core.nextDecisionSequence core.ledger :=
  ⟨hwf, hbelow, Nat.le_refl _, fun _ _ hd => ⟨hd, Or.inl rfl⟩⟩

theorem shrink (h : core.Continues next ledger) (hwf : core'.ledger.WellFormed)
    (hnext : core.nextDecisionSequence ≤ core'.nextDecisionSequence)
    (hsame : ∀ d, core'.ledger.holds d = true → core.ledger.holds d = true ∧
      SameLoad (core.ledger.held d) (core'.ledger.held d)) : core'.Continues next ledger where
  wellFormed := hwf
  below d hd := Nat.lt_of_lt_of_le (h.below d (hsame d hd).1) hnext
  next_le := Nat.le_trans h.next_le hnext
  kept d hlt hd := by
    obtain ⟨hheld, hload⟩ := hsame d hd
    obtain ⟨hbefore, hfirst⟩ := h.kept d hlt hheld
    exact ⟨hbefore, hfirst.trans hload⟩

theorem congr (h : core.Continues next ledger) (hledger : core'.ledger = core.ledger)
    (hnext : core.nextDecisionSequence ≤ core'.nextDecisionSequence) :
    core'.Continues next ledger := by
  refine h.shrink (hledger ▸ h.wellFormed) hnext fun d hd => ?_
  rw [hledger] at hd ⊢
  exact ⟨hd, Or.inl rfl⟩

theorem release (h : core.Continues next ledger) {released : AdmittedLoadLedger}
    (hrelease : core.ledger.release d = .ok (es, released)) :
    ({ core with ledger := released } : EngineCore).Continues next ledger := by
  refine h.shrink (h.wellFormed.release hrelease) le_rfl fun d' hd' => ?_
  obtain ⟨-, -, -, rfl⟩ := release_eq_ok_iff.mp hrelease
  have hlook : (core.ledger.without d es).byDecision[d']? = _ := getElem?_byDecision_without d'
  split at hlook
  · simp [holds, hlook] at hd'
  · exact ⟨by rwa [holds, hlook] at hd', Or.inl (held_congr hlook)⟩

theorem reserve (h : core.Continues next ledger) {demand : DemandId} {epoch : FabricEpoch}
    {generation : Generation} {path : PathId} {amounts : List (ResourceId × Rate)}
    {result : Except Status Unit} {reserved : AdmittedLoadLedger}
    (hnodup : (amounts.map Prod.fst).Nodup)
    (hreserve : core.ledger.reserve core.nextDecisionSequence demand epoch generation path amounts =
      (result, reserved)) (hledger : core'.ledger = reserved)
    (hnext : core'.nextDecisionSequence = core.nextDecisionSequence + 1) :
    core'.Continues next ledger := by
  have hwf := h.wellFormed.reserve core.nextDecisionSequence demand epoch generation path hnodup
  rw [hreserve] at hwf
  subst hledger
  have hle := h.next_le
  -- an older identity is looked up in the ledger before the reservation
  have hlook : ∀ d, d ≠ core.nextDecisionSequence →
      core'.ledger.byDecision[d]? = core.ledger.byDecision[d]? := by
    intro d hd
    rcases byDecision_of_reserve hreserve with hsame | ⟨-, -, hadded⟩
    · rw [hsame]
    · rw [hadded, Std.ExtTreeMap.getElem?_insert, if_neg (by simpa using hd.symm)]
  refine ⟨hwf, fun d hd => ?_, by lia, fun d hlt hd => ?_⟩
  · by_cases heq : d = core.nextDecisionSequence
    · lia
    · rw [holds, hlook d heq] at hd
      have hbelow := h.below d hd
      lia
  · have hold := hlook d (by lia)
    rw [holds, hold] at hd
    rw [held_congr hold]
    exact h.kept d hlt hd

end Continues

theorem preserved_continues (next : AdmissionDecisionId) (ledger : AdmittedLoadLedger) :
    Preserved (Continues next ledger) where
  release core d reason explanation _ h := by
    generalize hcall : core.releaseDecisionLocked d reason .revoked explanation = outcome
    cases releaseDecisionLocked_effect hcall with
    | unheld _ => exact h
    | unwritten _ _ | stuck _ _ _ => exact h.congr rfl le_rfl
    | unmarked _ _ hrelease _ | released _ _ hrelease _ =>
      exact (h.release hrelease).congr rfl le_rfl
  mark _ _ _ _ _ h := h.congr rfl le_rfl
  note _ _ _ h := h.congr rfl le_rfl
  clearFlags core h := by
    refine h.shrink (h.wellFormed.setFlags false) le_rfl fun d hd => ?_
    exact ⟨(holds_setFlags core.ledger false d).symm.trans hd,
      Or.inr (held_setFlags core.ledger false d)⟩
  refusal core request claim reason evidence recordAttempt h := by
    generalize core.refusal request claim reason evidence = decision
    generalize hcall : core.consumeIdentity.finishRefusal decision request recordAttempt = outcome
    cases finishRefusal_effect hcall with
    | unwritten _ | settled _ => exact h.congr rfl (Nat.le_succ _)
  grant core request claim grant hverdict h := by
    have hnodup := nodup_amountsOf (verdict_eq_grant hverdict).2.2.2
    generalize hcall : core.consumeIdentity.finishAdmission _ _ _ = outcome
    cases finishAdmission_effect hcall with
    | unprepared _ => exact h.congr rfl (Nat.le_succ _)
    | unreserved _ hreserve => exact h.reserve hnodup hreserve rfl rfl
    | uncommitted _ hreserve _ =>
      -- the reservation is taken back
      obtain ⟨es, released, hrelease, -, -⟩ := release_of_reserve hnodup hreserve
      simp only [hrelease]
      exact ((h.reserve hnodup hreserve rfl rfl : EngineCore.Continues next ledger
        { core.consumeIdentity with ledger := _ }).release hrelease).congr rfl le_rfl
    | committed _ hreserve _ =>
      rw [compactIfNeededLocked_snd]
      exact h.reserve hnodup hreserve rfl rfl
  compact core h := by
    rw [compactLocked_snd]
    exact h.congr rfl le_rfl
  tidy _ _ hstores _ h := h.congr (congrArg Stores.ledger hstores)
    (Nat.le_of_eq (congrArg Stores.nextDecisionSequence hstores).symm)

theorem ofStores_continues (next : AdmissionDecisionId) (ledger : AdmittedLoadLedger) :
    OfStores (Continues next ledger) :=
  fun _ _ hstores h => h.congr (congrArg Stores.ledger hstores)
    (Nat.le_of_eq (congrArg Stores.nextDecisionSequence hstores).symm)

theorem Continues.after {core : EngineCore} {next : AdmissionDecisionId}
    {ledger : AdmittedLoadLedger} (h : core.Continues next ledger) (call : Call) :
    (core.after call).Continues next ledger :=
  (preserved_continues next ledger).perform (ofStores_continues next ledger)
    (h.congr rfl le_rfl : (core.onDisk call.disk).Continues next ledger) call.operation

theorem holds_of_after {core : EngineCore} {call : Call}
    (hop : ∀ request claim, call.operation ≠ .admitRequest request claim)
    (h : (core.after call).ledger.holds d = true) : core.ledger.holds d = true := by
  have hkeeping : Housekeeping (fun _ => True)
      fun core' => core'.ledger.holds d = true → core.ledger.holds d = true := by
    refine ⟨fun core' d' reason explanation _ hP => ?_, fun _ _ _ _ _ hP => hP, fun _ _ _ hP => hP,
      fun core' hP hd => hP ((holds_setFlags core'.ledger false d).symm.trans hd),
      fun _ _ hstores _ hP hd => hP ?_⟩
    · generalize hcall : core'.releaseDecisionLocked d' reason .revoked explanation = outcome
      cases releaseDecisionLocked_effect hcall with
      | unheld | unwritten | stuck => exact hP
      | unmarked _ _ hrelease _ | released _ _ hrelease _ =>
        exact fun hd => hP (holds_of_release hrelease hd)
    · exact (congrArg (fun stores => stores.ledger.holds d) hstores).symm.trans hd
  have hdisk : (core.onDisk call.disk).ledger.holds d = true → core.ledger.holds d = true := id
  refine hkeeping.perform (fun _ _ hstores hP hd => hP ?_) hdisk (fun _ _ => trivial)
    (fun request claim heq => absurd heq (hop request claim)) (fun _ hd => hdisk ?_) h
  · exact (congrArg (fun stores => stores.ledger.holds d) hstores).symm.trans hd
  · rw [compactLocked_snd] at hd
    exact hd

/-- A new engine, or one resumed from a journal whose intents name no resource twice. -/
def InService (core : EngineCore) : Prop :=
  core.Starting ∨ ∃ config journal, (boot config journal).1.status = none ∧
    (∀ prepare, .admissionPrepare prepare ∈ journal.records →
      (prepare.amounts.map Prod.fst).Nodup) ∧ core = (boot config journal).2

theorem InService.continues {core : EngineCore} (h : core.InService) :
    core.Continues core.nextDecisionSequence core.ledger := by
  have hconsistent : core.Consistent → core.Continues core.nextDecisionSequence core.ledger := by
    refine fun h => .refl h.wellFormed fun d hd => ?_
    obtain ⟨record, hfind, -⟩ := h.admitting d hd
    exact (h.below d record hfind).1
  rcases h with (⟨config, rfl⟩ | ⟨config, options, disk, rfl⟩) |
    ⟨config, journal, hstatus, hintents, rfl⟩
  · exact hconsistent (Consistent.fresh config)
  · exact hconsistent (Consistent.boot_new config options disk).1
  · obtain ⟨opened, state, ledger, epoch, journal', -, hreplay, hrestore, -, -, heq⟩ :=
      boot_eq_recoveredCore hstatus
    have hsourced := ReplayState.sourced_of_replayFrames hreplay
    rw [heq]
    refine .refl ((wellFormed_restoreLedger (fun prepare hprepare => hintents prepare
      (hsourced.of_mem_livePrepares hprepare).1) .empty hrestore).setFlags true) fun d hd => ?_
    change (ledger.setFlags true).holds d = true at hd
    rw [holds_setFlags] at hd
    rcases holds_of_restoreLedger hrestore hd with hold | ⟨prepare, hprepare, rfl⟩
    · simp [holds] at hold
    · obtain ⟨-, record, hfind, -⟩ := hsourced.of_mem_livePrepares hprepare
      obtain ⟨hdecision, original, hmem, hrestores⟩ := hsourced.recorded _ record hfind
      rw [← hdecision, hrestores.decision]
      exact Nat.lt_succ_of_le (ReplayState.decision_le_of_replayFrames hreplay hmem)

end EngineCore

/-! ### Runs -/

/-- An engine, what its decisions got when they were admitted, and the reported ones. -/
structure ReleaseRoll where
  core : EngineCore
  reserved : AdmissionDecisionId → List LedgerEntry
  reported : List AdmissionDecisionId

namespace ReleaseRoll

open EngineCore AdmittedLoadLedger TransitionSystem SmallFabric

/-- The roll of an engine that has just been opened. -/
def ofCore (core : EngineCore) : ReleaseRoll := ⟨core, core.ledger.held, []⟩

/-- The entries of a decision are entered by the admission after which it holds load. -/
def reservedAfter (roll : ReleaseRoll) (call : Call) (d : AdmissionDecisionId) :
    List LedgerEntry :=
  match call.operation with
  | .admitRequest _ _ => if roll.core.ledger.holds d then roll.reserved d
      else (roll.core.after call).ledger.held d
  | _ => roll.reserved d

/-- The roll after a call. -/
def step (roll : ReleaseRoll) (call : Call) : ReleaseRoll where
  core := roll.core.after call
  reserved := roll.reservedAfter call
  reported := roll.reported ++ roll.core.reportedBy call

/-- Decisions are reported for the first time, with exactly what was reserved for them. -/
structure ExactRelease (roll : ReleaseRoll) (call : Call) : Prop where
  once : (roll.reported ++ roll.core.reportedBy call).Nodup
  held : ∀ d ∈ roll.core.reportedBy call, roll.core.ledger.holds d = true ∧
    SameLoad (roll.reserved d) (roll.core.ledger.held d) ∧
    (roll.core.after call).ledger.holds d = false
  others : roll.core.reportedBy call ≠ [] → ∀ d ∉ roll.core.reportedBy call,
    (roll.core.after call).ledger.holds d = roll.core.ledger.holds d ∧
    SameLoad (roll.core.ledger.held d) ((roll.core.after call).ledger.held d)
  lowered : roll.core.reportedBy call ≠ [] → ∀ r,
    ((roll.core.after call).ledger.admitted r).toNat +
      ((roll.core.reportedBy call).map fun d => loadOn (roll.reserved d) r).sum =
        (roll.core.ledger.admitted r).toNat

/-- What holds along a run. -/
structure Kept (roll : ReleaseRoll) : Prop where
  continues : roll.core.Continues roll.core.nextDecisionSequence roll.core.ledger
  reserved : ∀ d, roll.core.ledger.holds d = true →
    SameLoad (roll.reserved d) (roll.core.ledger.held d)
  nodup : roll.reported.Nodup
  gone : ∀ d ∈ roll.reported, d < roll.core.nextDecisionSequence ∧ roll.core.ledger.holds d = false

theorem Kept.exactRelease {roll : ReleaseRoll} (h : roll.Kept) (call : Call) :
    roll.ExactRelease call := by
  have hreleases := roll.core.releases_reportedBy call
  by_cases hne : roll.core.reportedBy call = []
  · constructor
    · rw [hne, List.append_nil]
      exact h.nodup
    all_goals simp [hne]
  obtain ⟨ledger, hchain, hledger⟩ := hreleases hne
  obtain ⟨-, hremoved⟩ := h.continues.wellFormed.removed hchain
  have hholds : ∀ d, (roll.core.after call).ledger.holds d = ledger.holds d := by
    intro d
    rcases hledger with heq | heq <;> rw [heq]
    exact holds_setFlags ledger false d
  have hload : ∀ d, SameLoad (ledger.held d) ((roll.core.after call).ledger.held d) := by
    intro d
    rcases hledger with heq | heq <;> rw [heq]
    · exact Or.inl rfl
    · exact Or.inr (held_setFlags ledger false d)
  have hadmitted : ∀ r, (roll.core.after call).ledger.admitted r = ledger.admitted r := by
    intro r
    rcases hledger with heq | heq <;> rw [heq]
    rfl
  refine ⟨?_, fun d hd => ?_, fun _ d hd => ?_, fun _ r => ?_⟩
  · refine List.nodup_append.mpr ⟨h.nodup, hremoved.nodup, ?_⟩
    rintro d hd d' hd' rfl
    exact absurd (hremoved.holds_of_mem d hd') (by simp [(h.gone d hd).2])
  · have hheld := hremoved.holds_of_mem d hd
    refine ⟨hheld, h.reserved d hheld, ?_⟩
    rw [hholds, holds, hremoved.byDecision_eq, if_pos hd]
    rfl
  · have hlook := hremoved.byDecision_eq d
    rw [if_neg hd] at hlook
    rw [hholds, ← held_congr hlook, holds, hlook]
    exact ⟨rfl, hload d⟩
  · rw [hadmitted, ← hremoved.admitted_eq r]
    congr 2
    exact List.map_congr_left fun d hd =>
      ((h.reserved d (hremoved.holds_of_mem d hd)).loadOn_eq r).symm

theorem Kept.step {roll : ReleaseRoll} (h : roll.Kept) (call : Call) : (roll.step call).Kept := by
  have hafter := h.continues.after call
  have hexact := h.exactRelease call
  have hbelow : ∀ d ∈ roll.reported ++ roll.core.reportedBy call,
      d < roll.core.nextDecisionSequence := by
    intro d hd
    rcases List.mem_append.mp hd with hd | hd
    · exact (h.gone d hd).1
    · exact h.continues.below d (hexact.held d hd).1
  refine ⟨.refl hafter.wellFormed hafter.below, fun d hd => ?_, hexact.once, fun d hd => ?_⟩
  · change SameLoad (roll.reservedAfter call d) ((roll.core.after call).ledger.held d)
    have hsame : roll.core.ledger.holds d = true →
        SameLoad (roll.reserved d) ((roll.core.after call).ledger.held d) := fun hheld =>
      (h.reserved d hheld).trans (hafter.kept d (h.continues.below d hheld) hd).2
    unfold reservedAfter
    split
    · split
      · rename_i hheld
        exact hsame hheld
      · exact Or.inl rfl
    · rename_i hop
      exact hsame (holds_of_after (fun request claim heq => hop request claim heq) hd)
  · refine ⟨Nat.lt_of_lt_of_le (hbelow d hd) hafter.next_le, ?_⟩
    rcases List.mem_append.mp hd with hold | hnew
    · -- an older decision that holds no load does not get any
      refine Bool.eq_false_iff.mpr fun hheld => ?_
      have hbefore := (hafter.kept d (hbelow d hd) hheld).1
      rw [(h.gone d hold).2] at hbefore
      cases hbefore
    · exact (hexact.held d hnew).2.2

theorem kept_ofCore {core : EngineCore} (h : core.InService) : (ofCore core).Kept :=
  ⟨h.continues, fun _ _ => Or.inl rfl, List.nodup_nil, nofun⟩

/-- Every call of every run of an engine reports decisions for the first time and removes exactly
what was reserved for them. -/
theorem exactRelease_of_reachable {roll : ReleaseRoll}
    (h : Reachable (fun roll => ∃ core : EngineCore, core.InService ∧ roll = ofCore core)
      ReleaseRoll.step (fun _ _ => True) roll) (call : Call) : roll.ExactRelease call := by
  have hkept : roll.Kept := h.invariant
    (by rintro _ ⟨core, hservice, rfl⟩; exact kept_ofCore hservice)
    fun _ call hroll _ => hroll.step call
  exact hkept.exactRelease call

/-- Three grants of which the first is revoked. -/
def revokedRun : List Operation :=
  announce [known 1 1 50, known 2 1 50] ++
    [.admitRequest (request 1 ⟨50, 50, 50⟩ [1]) {}, .admitRequest (request 2 ⟨20, 20, 20⟩ [2]) {},
      .admitRequest (request 3 ⟨30, 30, 30⟩ [2]) {}, .revoke 1 .operatorRequest {}]

/-- A roll with a revocation. -/
def revokedRoll : ReleaseRoll :=
  run ReleaseRoll.step (ofCore (EngineCore.fresh {}))
    (revokedRun.map fun operation => { operation })

/-- Resource 2 is cut down to the load of the second grant. -/
def reduction : Call := { operation := .publishCapacity (capacity 2 [known 1 2 50, known 2 2 20]) }

/-- The pass after the reduction reports the third grant, after the revocation of the first. -/
theorem exactRelease_reduction : revokedRoll.reported = [1] ∧
    revokedRoll.core.reportedBy reduction = [3] ∧ revokedRoll.ExactRelease reduction := by
  have hstart : Reachable (fun roll => ∃ core : EngineCore, core.InService ∧ roll = ofCore core)
      ReleaseRoll.step (fun _ _ => True) (ofCore (EngineCore.fresh {})) :=
    .init ⟨EngineCore.fresh {}, Or.inl (Or.inl ⟨{}, rfl⟩), rfl⟩
  have hallowed : Allowed ReleaseRoll.step (fun _ _ => True) (ofCore (EngineCore.fresh {}))
      (revokedRun.map fun operation => { operation }) := by decide +kernel
  exact ⟨by decide +kernel, by decide +kernel,
    exactRelease_of_reachable (hstart.run hallowed) reduction⟩

end ReleaseRoll

end AdmissionFabric
