import AdmissionFabric.Engine.EnforceSpec
import AdmissionFabric.Engine.SmallFabric

/-!
# One enforcement pass

The pass walks the decisions that hold load once, from the newest to the oldest, and revokes a
decision exactly if one of its resources is not known or carries more than its allowance when its
turn comes. What a resource carries then is the load of the decision itself, of every older one, and
of the newer ones that have been retained. One pass is enough: a decision that fitted at its turn
still fits after the older ones have been treated, since the load only goes down.

The results ask that every decision that holds load is listed once, by an admission, as it is in
every engine that a run reaches.
-/

namespace AdmissionFabric

open AdmittedLoadLedger

namespace AdmittedLoadLedger

variable {ledger ledger' : AdmittedLoadLedger}

/-! ### The load of a list of decisions -/

/-- The load that the listed decisions put on a resource. -/
def loadOf (ledger : AdmittedLoadLedger) (decisions : List AdmissionDecisionId)
    (resource : ResourceId) : Nat :=
  (decisions.map fun d => loadOn (ledger.held d) resource).sum

/-- All the rates that the listed decisions hold, on whatever resource. -/
def ratesOf (ledger : AdmittedLoadLedger) (decisions : List AdmissionDecisionId) : Nat :=
  (decisions.map fun d => ((ledger.held d).map (·.amount.toNat)).sum).sum

theorem WellFormed.toNat_admitted_eq_loadOf (hwf : ledger.WellFormed)
    {decisions : List AdmissionDecisionId}
    (hlisted : ∀ d, ledger.holds d = true → decisions.count d = 1) (resource : ResourceId) :
    (ledger.admitted resource).toNat = ledger.loadOf decisions resource := by
  have hkeys : ∀ d ∈ ledger.byDecision, decisions.count d = 1 := by
    intro d hd
    exact hlisted d (Std.ExtTreeMap.mem_iff_isSome_getElem?.mp hd)
  have hloads : ∀ bindings : List (AdmissionDecisionId × List LedgerEntry),
      loadOn (bindings.flatMap Prod.snd) resource =
        (bindings.map fun b => loadOn b.2 resource).sum := by
    intro bindings
    induction bindings with
    | nil => rfl
    | cons b rest ih => simp [ih]
  rw [hwf.admitted_eq, heldEntries, hloads,
    ← OrderedMap.sum_map_getElem? ledger.byDecision (loadOn · resource) hkeys]
  refine congrArg List.sum (List.map_congr_left fun d _ => ?_)
  rw [held, Std.ExtTreeMap.getD_eq_getD_getElem?]
  cases ledger.byDecision[d]? <;> rfl

theorem WellFormed.exists_of_admitted_ne_zero (hwf : ledger.WellFormed) {resource : ResourceId}
    (h : ledger.admitted resource ≠ 0) : ∃ e ∈ ledger.heldEntries, e.resource = resource := by
  by_contra hnone
  push Not at hnone
  have hzero := hwf.admitted_eq resource
  rw [loadOn_eq_zero hnone] at hzero
  exact h (UInt64.toNat_inj.mp hzero)

theorem loadOf_of_gone {gone : List AdmissionDecisionId}
    (hheld : ∀ d, ledger'.held d = if d ∈ gone then [] else ledger.held d)
    (decisions : List AdmissionDecisionId) (resource : ResourceId) :
    ledger'.loadOf decisions resource =
      ledger.loadOf (decisions.filter (· ∉ gone)) resource := by
  induction decisions with
  | nil => rfl
  | cons d rest ih =>
    simp only [loadOf, List.map_cons, List.sum_cons, hheld] at ih ⊢
    by_cases hd : d ∈ gone
    · simp [hd, ih]
    · simp [hd, ih]

theorem liveDecisions_setFlags (ledger : AdmittedLoadLedger) (flag : Bool) :
    (ledger.setFlags flag).liveDecisions = ledger.liveDecisions := by
  simp [liveDecisions, setFlags]

theorem liveDecisions_without {d : AdmissionDecisionId} {es : List LedgerEntry}
    (hd : ledger.byDecision[d]? = some es) :
    (ledger.without d es).liveDecisions + 1 = ledger.liveDecisions := by
  have hlength := (OrderedMap.toList_perm_cons_erase _ hd).length_eq
  simpa [liveDecisions, without] using hlength.symm

end AdmittedLoadLedger

namespace EngineCore

variable {records : List DecisionRecord} {core core' initial : EngineCore} {d : AdmissionDecisionId}
    {reason : RevocationReason}

/-- Every decision that holds load appears exactly once in the audit order, as an admission. -/
structure ListedOnce (core : EngineCore) : Prop where
  count : ∀ d, core.ledger.holds d = true →
    (core.history.inAuditOrder.map (·.decision)).count d = 1
  admitting : ∀ record ∈ core.history.inAuditOrder, core.ledger.holds record.decision = true →
    record.outcome.isAdmitting = true

theorem Consistent.listedOnce (h : core.Consistent) : core.ListedOnce where
  count d hd := by
    obtain ⟨record, hfind, -⟩ := h.admitting d hd
    exact h.indexed.count_inAuditOrder hfind
  admitting record hrecord hd := by
    obtain ⟨found, hfind, hadmitting⟩ := h.admitting _ hd
    rw [h.indexed.find_of_mem_inAuditOrder hrecord] at hfind
    exact Option.some.inj hfind ▸ hadmitting

theorem ListedOnce.exists_mem_inAuditOrder (h : core.ListedOnce)
    (hheld : core.ledger.holds d = true) : ∃ record ∈ core.history.inAuditOrder,
      record.decision = d ∧ record.outcome.isAdmitting = true := by
  have hmem : d ∈ core.history.inAuditOrder.map (·.decision) :=
    List.count_pos_iff.mp (by rw [h.count d hheld]; exact Nat.one_pos)
  obtain ⟨record, hrecord, rfl⟩ := List.mem_map.mp hmem
  exact ⟨record, hrecord, rfl, h.admitting record hrecord hheld⟩

/-- A decision does not fit at its turn: one of its resources is not known, or carries more than its
allowance with the load of the older decisions and of the newer ones retained so far. -/
def Overruns (core : EngineCore) (older : List DecisionRecord) (record : DecisionRecord)
    (retained : List DecisionRecord) : Prop :=
  ∃ e ∈ core.ledger.held record.decision, ∀ cap ∈ core.knownCapacity e.resource,
    cap.usable.toNat - (core.headroomFor cap).toNat - core.obligationLoadOn e.resource <
      core.ledger.loadOf ((older ++ record :: retained).map (·.decision)) e.resource

/-- The record of a decision that the pass revoked. -/
def revokedFor (reason : RevocationReason) (record : DecisionRecord) : DecisionRecord :=
  { record with state := .revoked, reason, ledgerLive := false }

/-! ### What the pass keeps count of -/

/-- What has happened since a pass began, with the figures that are reported. -/
structure Accounted (initial core : EngineCore) (reason : RevocationReason)
    (report : ReconciliationReport) : Prop extends Enforced initial core report where
  nodup : report.revokedDecisions.Nodup
  held_before : ∀ d ∈ report.revokedDecisions, initial.ledger.holds d = true
  revoked : report.revoked = report.revokedDecisions.length
  released : report.released.toNat =
    min (initial.ledger.ratesOf report.revokedDecisions) (2 ^ 64 - 1)
  live : core.ledger.liveDecisions + report.revokedDecisions.length =
    initial.ledger.liveDecisions
  records : ∀ d, core.history.find d = if d ∈ report.revokedDecisions
    then (initial.history.find d).map (revokedFor reason) else initial.history.find d

namespace Accounted

variable {report report' : ReconciliationReport}

theorem refl (hwf : initial.ledger.WellFormed) (reason : RevocationReason)
    (trigger : EnforcementTrigger) :
    Accounted initial initial reason { performed := true, trigger } where
  toEnforced := .refl hwf _ rfl
  nodup := List.nodup_nil
  held_before := by simp
  revoked := rfl
  released := rfl
  live := rfl
  records d := by simp

theorem release (h : Accounted initial core reason report) {explanation explanation' : Explanation}
    {note : BindingConstraint} (hwf : initial.ledger.WellFormed)
    (hnot : d ∉ report.revokedDecisions)
    (hrelease : core.releaseDecisionLocked d reason .revoked explanation =
      (.ok explanation', core')) :
    Accounted initial core' reason
      (reportRevoked report d (initial.ledger.entriesOf d) note) := by
  have hnext : Enforced initial core'
      (reportRevoked report d (initial.ledger.entriesOf d) note) :=
    (h.toEnforced.release hrelease).1
  obtain ⟨es, journal, hd, -, rfl⟩ := releaseDecisionLocked_eq_ok hrelease
  have hd₀ : initial.ledger.byDecision[d]? = some es := by
    rw [← hd, h.held, if_neg hnot]
  have hperm := AdmittedLoadLedger.Labelled.filter_entries_perm hwf.decision_eq hd₀
  refine ⟨hnext, ?_, ?_, ?_, ?_, ?_, fun d' => ?_⟩
  · simpa [reportRevoked] using List.Nodup.concat hnot h.nodup
  · intro d' hd'
    rcases List.mem_append.mp hd' with hd' | hd'
    · exact h.held_before d' hd'
    · rw [List.mem_singleton.mp hd']
      exact holds_of_getElem? hd₀
  · simp [reportRevoked, h.revoked]
  · have hamounts : ((initial.ledger.entriesOf d).map (·.amount.toNat)).sum =
        ((initial.ledger.held d).map (·.amount.toNat)).sum := by
      rw [held_of_getElem? hd₀]
      exact (hperm.map _).sum_nat
    simp only [reportRevoked, toNat_satAdd, h.released, SumLatch.toNat_saturatedTotal_addAll,
      List.map_map, Function.comp_def, hamounts, AdmittedLoadLedger.ratesOf, List.map_append,
      List.map_cons, List.map_nil, List.sum_append, List.sum_cons, List.sum_nil]
    omega
  · have hlive := AdmittedLoadLedger.liveDecisions_without hd
    have hbefore := h.live
    simp only [reportRevoked, List.length_append, List.length_singleton, settleRelease]
    omega
  · change (core.history.modify d _).find d' = _
    rw [DecisionHistory.find_modify, h.records d, h.records d', if_neg hnot]
    by_cases hdd : d = d'
    · subst hdd
      rw [if_pos rfl, if_pos (by simp [reportRevoked])]
      rfl
    · simp [hdd, Ne.symm hdd, reportRevoked]

theorem enforceRecord (h : Accounted initial core reason report) (hwf : initial.ledger.WellFormed)
    {record : DecisionRecord}
    (hstep : EngineCore.enforceRecord initial.ledger.entriesOf reason report record core =
      (.ok report', core')) :
    Accounted initial core' reason report' ∧ ∃ added, added ⊆ [record.decision] ∧
      report'.revokedDecisions = report.revokedDecisions ++ added := by
  obtain ⟨rfl, rfl, -⟩ | ⟨hnot, -, note, explanation, explanation', rfl, hrelease⟩ :=
    enforceRecord_eq_ok hstep
  · exact ⟨h, [], by simp⟩
  · exact ⟨h.release hwf hnot hrelease, [record.decision], by simp [reportRevoked]⟩

theorem enforceRecords (h : Accounted initial core reason report)
    (hwf : initial.ledger.WellFormed)
    (hpass : EngineCore.enforceRecords initial.ledger.entriesOf reason report records core =
      (.ok report', core')) :
    Accounted initial core' reason report' ∧ ∃ added, added ⊆ records.map (·.decision) ∧
      report'.revokedDecisions = report.revokedDecisions ++ added := by
  induction records generalizing core report with
  | nil =>
    obtain ⟨hreport, rfl⟩ := Prod.mk.inj hpass
    obtain rfl := Except.ok.inj hreport
    exact ⟨h, [], by simp⟩
  | cons record rest ih =>
    rw [EngineCore.enforceRecords] at hpass
    rcases hstep : EngineCore.enforceRecord initial.ledger.entriesOf reason report record core with
      ⟨status | report₁, core₁⟩
    · rw [hstep] at hpass
      simp at hpass
    · rw [hstep, Outcome.andThen_ok] at hpass
      obtain ⟨hnext, first, hfirst, hreport₁⟩ := h.enforceRecord hwf hstep
      obtain ⟨hlast, added, hadded, hreport'⟩ := ih hnext hpass
      refine ⟨hlast, first ++ added, ?_, by rw [hreport', hreport₁, List.append_assoc]⟩
      exact List.append_subset.mpr
        ⟨List.Subset.trans hfirst (List.cons_subset_cons _ (List.nil_subset _)),
          List.subset_cons_of_subset _ hadded⟩

end Accounted

/-! ### The turn of a decision -/

theorem enforceRecords_append (held : AdmissionDecisionId → List LedgerEntry)
    (reason : RevocationReason) (report : ReconciliationReport)
    (records later : List DecisionRecord) (core : EngineCore) :
    enforceRecords held reason report (records ++ later) core =
      (enforceRecords held reason report records core).andThen fun report core =>
        enforceRecords held reason report later core := by
  induction records generalizing report core with
  | nil => rfl
  | cons record rest ih =>
    rw [List.cons_append, enforceRecords, enforceRecords]
    rcases enforceRecord held reason report record core with ⟨status | report₁, core₁⟩
    · rfl
    · simp only [Outcome.andThen_ok, ih]

section Turn

variable {older newer : List DecisionRecord} {record : DecisionRecord}

theorem ListedOnce.count_split (h : initial.ListedOnce)
    (hsplit : initial.history.inAuditOrder = older ++ record :: newer)
    (hd : initial.ledger.holds d = true) :
    (older.map (·.decision)).count d + (if record.decision = d then 1 else 0) +
      (newer.map (·.decision)).count d = 1 := by
  have hcount := h.count d hd
  rw [hsplit, List.map_append, List.map_cons, List.count_append, List.count_cons] at hcount
  simp only [beq_iff_eq] at hcount
  omega

/-- When the pass comes to a record, nothing older has been touched. -/
theorem toNat_admitted_at_turn (hlisted : initial.ListedOnce)
    (hsplit : initial.history.inAuditOrder = older ++ record :: newer)
    {report₁ report : ReconciliationReport} (h : Accounted initial core reason report₁)
    (hlast : Accounted initial core' reason report)
    (hnewer : report₁.revokedDecisions ⊆ newer.map (·.decision))
    {added : List AdmissionDecisionId}
    (hreport : report.revokedDecisions = report₁.revokedDecisions ++ added)
    (hadded : added ⊆ record.decision :: older.map (·.decision)) (resource : ResourceId) :
    (core.ledger.admitted resource).toNat = initial.ledger.loadOf
      ((older ++ record :: newer.filter (·.decision ∉ report.revokedDecisions)).map (·.decision))
      resource := by
  have hgone : ∀ d, core.ledger.held d =
      if d ∈ report₁.revokedDecisions then [] else initial.ledger.held d := by
    intro d
    simp only [held, Std.ExtTreeMap.getD_eq_getD_getElem?, h.held d]
    split <;> rfl
  have hcount : ∀ d, core.ledger.holds d = true →
      (initial.history.inAuditOrder.map (·.decision)).count d = 1 :=
    fun d hd => hlisted.count d (h.lighter.holds d hd)
  -- a revoked decision is one of the newer ones, hence neither this one nor an older one
  have hkept : ∀ d ∈ record.decision :: older.map (·.decision), d ∉ report₁.revokedDecisions := by
    intro d hd hrevoked
    have hone := hlisted.count_split hsplit (h.held_before d hrevoked)
    have hpos := List.count_pos_iff.mpr (hnewer hrevoked)
    rcases List.mem_cons.mp hd with rfl | hd
    · rw [if_pos rfl] at hone
      omega
    · have := List.count_pos_iff.mpr hd
      omega
  have hsame : ∀ r ∈ newer, (r.decision ∉ report₁.revokedDecisions ↔
      r.decision ∉ report.revokedDecisions) := by
    intro r hr
    rw [hreport, List.mem_append, not_or, iff_self_and]
    intro _ hmem
    have hone := hlisted.count_split hsplit
      (hlast.held_before r.decision (by rw [hreport]; exact List.mem_append_right _ hmem))
    have hpos := List.count_pos_iff.mpr (List.mem_map_of_mem (f := (·.decision)) hr)
    rcases List.mem_cons.mp (hadded hmem) with heq | hd
    · rw [if_pos heq.symm] at hone
      omega
    · have := List.count_pos_iff.mpr hd
      omega
  have hrest : ((older ++ record :: newer).map (·.decision)).filter
      (· ∉ report₁.revokedDecisions) =
        (older ++ record :: newer.filter (·.decision ∉ report.revokedDecisions)).map
          (·.decision) := by
    have holder : (older.map (·.decision)).filter (· ∉ report₁.revokedDecisions) =
        older.map (·.decision) :=
      List.filter_eq_self.mpr fun d hd => by simpa using hkept d (List.mem_cons_of_mem _ hd)
    have hnewer : newer.filter (·.decision ∉ report₁.revokedDecisions) =
        newer.filter (·.decision ∉ report.revokedDecisions) :=
      List.filter_congr fun r hr => decide_eq_decide.mpr (hsame r hr)
    rw [List.map_append, List.map_cons, List.filter_append, holder, List.filter_cons_of_pos
      (by simpa using hkept _ List.mem_cons_self), List.map_append, List.map_cons, ← hnewer,
      List.filter_map]
    rfl
  rw [h.wellFormed.toNat_admitted_eq_loadOf hcount, AdmittedLoadLedger.loadOf_of_gone hgone, hsplit,
    hrest]

theorem mem_revokedDecisions_iff (hwf : initial.ledger.WellFormed) (hlisted : initial.ListedOnce)
    {trigger : EnforcementTrigger} {report : ReconciliationReport}
    (hpass : enforceRecords initial.ledger.entriesOf reason { performed := true, trigger }
      initial.history.inAuditOrder.reverse initial = (.ok report, core'))
    (hsplit : initial.history.inAuditOrder = older ++ record :: newer)
    (hheld : initial.ledger.holds record.decision = true) :
    record.decision ∈ report.revokedDecisions ↔
      initial.Overruns older record (newer.filter (·.decision ∉ report.revokedDecisions)) := by
  rw [hsplit, List.reverse_append, List.reverse_cons, List.append_assoc, List.singleton_append,
    enforceRecords_append] at hpass
  rcases hfirst : enforceRecords initial.ledger.entriesOf reason { performed := true, trigger }
      newer.reverse initial with ⟨status | report₁, core₁⟩
  · rw [hfirst] at hpass
    simp at hpass
  rw [hfirst, Outcome.andThen_ok, enforceRecords] at hpass
  rcases hstep : enforceRecord initial.ledger.entriesOf reason report₁ record core₁ with
    ⟨status | report₂, core₂⟩
  · rw [hstep] at hpass
    simp at hpass
  rw [hstep, Outcome.andThen_ok] at hpass
  obtain ⟨h₁, added₁, hadded₁, hreport₁⟩ := (Accounted.refl hwf reason trigger).enforceRecords hwf
    hfirst
  obtain ⟨h₂, added₂, hadded₂, hreport₂⟩ := h₁.enforceRecord hwf hstep
  obtain ⟨h₃, added₃, hadded₃, hreport₃⟩ := h₂.enforceRecords hwf hpass
  rw [List.map_reverse] at hadded₁ hadded₃
  have hnewer : report₁.revokedDecisions ⊆ newer.map (·.decision) := by
    rw [hreport₁]
    exact fun d hd => List.mem_reverse.mp (hadded₁ hd)
  have hadded : added₂ ++ added₃ ⊆ record.decision :: older.map (·.decision) := by
    refine List.append_subset.mpr
      ⟨List.Subset.trans hadded₂ (List.cons_subset_cons _ (List.nil_subset _)), ?_⟩
    exact fun d hd => List.mem_cons_of_mem _ (List.mem_reverse.mp (hadded₃ hd))
  have hload := toNat_admitted_at_turn hlisted hsplit h₁ h₃ hnewer
    (by rw [hreport₃, hreport₂, List.append_assoc]) hadded
  have hone := hlisted.count_split hsplit hheld
  rw [if_pos rfl] at hone
  -- the verdict on the entries at this turn
  have hturn : initial.Overruns older record
      (newer.filter (·.decision ∉ report.revokedDecisions)) ↔
        ∃ e ∈ initial.ledger.entriesOf record.decision,
          ¬ core₁.toAuthority.Fits core₁.ledger e := by
    obtain ⟨es, hes⟩ := holds_eq_true_iff.mp hheld
    have hperm := AdmittedLoadLedger.Labelled.filter_entries_perm hwf.decision_eq hes
    rw [Overruns, held_of_getElem? hes]
    refine exists_congr fun e => and_congr hperm.mem_iff.symm ?_
    simp only [Authority.Fits, h₁.authority, not_exists, not_and, UInt64.le_iff_toNat_le,
      Authority.toNat_allowance, hload, Nat.not_le]
  rw [hturn]
  obtain ⟨rfl, rfl, hfits⟩ | ⟨hnot, hover, note, explanation, explanation', rfl, -⟩ :=
    enforceRecord_eq_ok hstep
  · have hnot : record.decision ∉ report₂.revokedDecisions := by
      intro hmem
      have := List.count_pos_iff.mpr (hnewer hmem)
      omega
    have hlater : record.decision ∉ added₃ := by
      intro hmem
      have := List.count_pos_iff.mpr (List.mem_reverse.mp (hadded₃ hmem))
      omega
    have hadmitting := hlisted.admitting record (by rw [hsplit]; simp) hheld
    have hall := hfits hadmitting hnot
    rw [hreport₃]
    simp only [List.mem_append, hnot, hlater, or_self, false_iff, not_exists, not_and, not_not]
    exact hall
  · rw [hreport₃]
    simp only [reportRevoked, List.mem_append, List.mem_singleton, true_or, or_true, true_iff]
    exact hover

end Turn

/-! ### The whole pass -/

/-- What a pass leaves and reports. -/
structure PassResult (core core' : EngineCore) (reason : RevocationReason) : Prop where
  /-- Every resource that carries load is known and carries no more than its allowance. -/
  fits : ∀ r, (core'.ledger.admitted r ≠ 0 ∨ ∃ e ∈ core'.ledger.heldEntries, e.resource = r) →
    ∃ cap ∈ core'.knownCapacity r, (core'.ledger.admitted r).toNat ≤
      cap.usable.toNat - (core'.headroomFor cap).toNat - core'.obligationLoadOn r
  /-- What is reported as revoked is exactly what did not fit at its turn. -/
  revoked_iff : ∀ older record newer, core.history.inAuditOrder = older ++ record :: newer →
    core.ledger.holds record.decision = true →
    (record.decision ∈ core'.reconciliation.revokedDecisions ↔ core.Overruns older record
      (newer.filter (·.decision ∉ core'.reconciliation.revokedDecisions)))
  /-- Nothing is revoked if every resource that carries load fits before the pass. -/
  revoked_eq_nil : core.AllFit → core'.reconciliation.revokedDecisions = []
  /-- Retained decisions keep all their entries, and revoked ones hold nothing. -/
  entries : ∀ d : AdmissionDecisionId, core'.ledger.byDecision[d]? =
    if d ∈ core'.reconciliation.revokedDecisions then none
    else core.ledger.byDecision[d]?.map
      (List.map fun e => { e with requiresRevalidation := false })
  /-- The records of revoked decisions are marked, and no others change. -/
  records : ∀ d, core'.history.find d = if d ∈ core'.reconciliation.revokedDecisions
    then (core.history.find d).map (revokedFor reason) else core.history.find d
  /-- Only decisions that held load are revoked, each once. -/
  held_before : core'.reconciliation.revokedDecisions.Nodup ∧
    ∀ d ∈ core'.reconciliation.revokedDecisions, core.ledger.holds d = true
  revoked : core'.reconciliation.revoked = core'.reconciliation.revokedDecisions.length
  retained : core'.reconciliation.retained = core'.ledger.liveDecisions ∧
    core'.reconciliation.retained + core'.reconciliation.revoked = core.ledger.liveDecisions
  released : core'.reconciliation.released.toNat =
    min (core.ledger.ratesOf core'.reconciliation.revokedDecisions) (2 ^ 64 - 1)

theorem revokedDecisions_of_allFit {report report' : ReconciliationReport}
    (hwf : initial.ledger.WellFormed) (hfit : initial.AllFit)
    (hreport : report.revokedDecisions = [])
    (hpass : enforceRecords initial.ledger.entriesOf reason report records initial =
      (.ok report', core')) : report'.revokedDecisions = [] := by
  induction records generalizing report with
  | nil =>
    obtain ⟨hreport', -⟩ := Prod.mk.inj hpass
    rw [← Except.ok.inj hreport', hreport]
  | cons record rest ih =>
    rw [enforceRecords] at hpass
    rcases hstep : enforceRecord initial.ledger.entriesOf reason report record initial with
      ⟨status | report₁, core₁⟩
    · rw [hstep] at hpass
      simp at hpass
    rw [hstep, Outcome.andThen_ok] at hpass
    obtain ⟨rfl, rfl, -⟩ | ⟨-, ⟨e, he, hover⟩, -⟩ := enforceRecord_eq_ok hstep
    · exact ih hreport hpass
    · obtain ⟨es, hes, hmem⟩ := hwf.mem_filter_entries.mp he
      exact absurd (hfit e (mem_heldEntries.mpr ⟨_, es, hes, hmem⟩)) hover

/-- Enforcement that succeeds has revoked exactly what did not fit at its turn, in the order from
the newest to the oldest; the rest is untouched and fits. -/
theorem enforceAccountingLocked_spec {trigger : EnforcementTrigger}
    (hcapacity : core.capacity ≠ none) (hwf : core.ledger.WellFormed) (hlisted : core.ListedOnce)
    (hok : core.enforceAccountingLocked trigger = (.ok (), core')) :
    core.PassResult core' trigger.reason := by
  obtain ⟨snapshot, hsnapshot⟩ := Option.ne_none_iff_exists'.mp hcapacity
  unfold enforceAccountingLocked at hok
  rw [hsnapshot] at hok
  rcases hpass : enforceRecords core.ledger.entriesOf trigger.reason { performed := true, trigger }
      core.history.inAuditOrder.reverse core with ⟨status | report, core₁⟩
  · simp [hpass] at hok
  simp only [hpass, Outcome.andThen_ok] at hok
  -- the audit mark changes the journal only
  have hstate : ∃ journal, core' = { core₁.reconciled snapshot report with journal } := by
    unfold finishEnforcement at hok
    split at hok
    · exact ⟨_, (congrArg Prod.snd hok).symm⟩
    · exact ⟨core₁.journal, (congrArg Prod.snd hok).symm⟩
  obtain ⟨journal, rfl⟩ := hstate
  obtain ⟨h, -⟩ := (Accounted.refl hwf trigger.reason trigger).enforceRecords hwf hpass
  have hfit := (allFit_of_enforceRecords hwf (fun _ => hlisted.exists_mem_inAuditOrder) rfl
    hpass).clearFlags
  have hlive := AdmittedLoadLedger.liveDecisions_setFlags core₁.ledger false
  have hnone : core.AllFit → report.revokedDecisions = [] :=
    fun hall => revokedDecisions_of_allFit hwf hall rfl hpass
  have hturns : ∀ older record newer, core.history.inAuditOrder = older ++ record :: newer →
      core.ledger.holds record.decision = true →
      (record.decision ∈ report.revokedDecisions ↔ core.Overruns older record
        (newer.filter (·.decision ∉ report.revokedDecisions))) :=
    fun _ _ _ => mem_revokedDecisions_iff hwf hlisted hpass
  refine ⟨fun r hr => ?_, hturns, hnone, fun d => ?_, h.records, ⟨h.nodup, h.held_before⟩,
    h.revoked, ⟨hlive.symm, ?_⟩, h.released⟩
  · have hentry : ∃ e ∈ (core₁.ledger.setFlags false).heldEntries, e.resource = r :=
      hr.elim (h.wellFormed.setFlags false).exists_of_admitted_ne_zero id
    obtain ⟨e, he, rfl⟩ := hentry
    obtain ⟨cap, hcap, hle⟩ := hfit e he
    refine ⟨cap, hcap, ?_⟩
    rw [UInt64.le_iff_toNat_le, Authority.toNat_allowance] at hle
    exact hle
  · change (core₁.ledger.setFlags false).byDecision[d]? =
      if d ∈ report.revokedDecisions then none else _
    rw [getElem?_byDecision_setFlags, h.held]
    split <;> rfl
  · change core₁.ledger.liveDecisions + report.revoked = _
    rw [h.revoked, h.live]

section Examples

open SmallFabric

theorem Consistent.performAll (h : core.Consistent) (operations : List Operation) :
    (core.performAll operations).Consistent := by
  induction operations generalizing core with
  | nil => exact h
  | cons operation rest ih =>
    have hdisk : (core.onDisk []).Consistent := h.mono rfl rfl le_rfl le_rfl
    exact ih (hdisk.perform operation)

/-- Two grants of forty on a resource of a hundred, and one on another. -/
def crowdedRun : List Operation :=
  announce [known 1 1 100, known 2 1 100] ++
    [.admitRequest (request 1 ⟨40, 40, 40⟩ [1]) {}, .admitRequest (request 2 ⟨40, 40, 40⟩ [1]) {},
      .admitRequest (request 3 ⟨40, 40, 40⟩ [2]) {}]

/-- The resource is cut down to fifty before the pass. -/
def crowdedCore : EngineCore :=
  ((EngineCore.fresh {}).performAll crowdedRun).withCapacity
    (capacity 2 [known 1 2 50, known 2 2 100]) (by decide +kernel)

/-- The newer of the two grants has to go, and the newest is kept. -/
theorem enforced_crowdedCore :
    crowdedCore.PassResult (crowdedCore.enforceAccountingLocked .capacityPublication).2
        .capacityReduction ∧
      (crowdedCore.enforceAccountingLocked
        .capacityPublication).2.reconciliation.revokedDecisions = [2] := by
  have hcrowded : crowdedCore.Consistent :=
    ((Consistent.fresh {}).performAll crowdedRun).of_stores rfl
  have hok : (crowdedCore.enforceAccountingLocked .capacityPublication).1 = .ok () := by
    decide +kernel
  exact ⟨enforceAccountingLocked_spec (by decide +kernel) hcrowded.wellFormed hcrowded.listedOnce
    (Prod.ext hok rfl), by decide +kernel⟩

end Examples

end EngineCore

end AdmissionFabric
