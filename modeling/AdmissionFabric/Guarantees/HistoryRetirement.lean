import AdmissionFabric.Engine.History
import AdmissionFabric.Engine.LedgerAccounting
import AdmissionFabric.Library.Run
import Mathlib.Data.List.TakeWhile

/-!
# Retirement of history behind a cursor

Retirement removes the oldest unprotected records until the history is within its capacity. A
record is protected while the ledger holds its decision. Instead of starting over at the oldest
record, the scan resumes at a cursor.

The cursor is right as long as every record before it is protected. A new record has a later audit
sequence than all records before, so it is never before the cursor; more admitted load protects more
records; and a release, which takes protection away, puts the cursor back to the front.
-/

namespace AdmissionFabric

open Std (ExtTreeMap)

namespace DecisionHistory

variable {history : DecisionHistory} {ledger : AdmittedLoadLedger}

/-- The oldest unprotected records, as many as there are beyond the capacity. -/
def surplus (history : DecisionHistory) (ledger : AdmittedLoadLedger) : List DecisionRecord :=
  (history.inAuditOrder.filter fun record => !ledger.holds record.decision).take
    (history.records.size - history.capacity)

/-! ### One scan -/

/-- The unprotected decisions among entries of the audit index. -/
def retirable (ledger : AdmittedLoadLedger)
    (entries : List (AuditSequence × AdmissionDecisionId)) : List AdmissionDecisionId :=
  (entries.map Prod.snd).filter fun decision => !ledger.holds decision

/-- The entries are recorded, each under its own identity. -/
structure Recorded (history : DecisionHistory)
    (entries : List (AuditSequence × AdmissionDecisionId)) : Prop where
  mem : ∀ e ∈ entries, e.2 ∈ history.records
  nodup : (entries.map Prod.snd).Nodup

theorem Recorded.tail {entry : AuditSequence × AdmissionDecisionId}
    {rest : List (AuditSequence × AdmissionDecisionId)}
    (h : Recorded history (entry :: rest)) : Recorded history rest :=
  ⟨fun e he => h.mem e (List.mem_cons_of_mem _ he), (List.nodup_cons.mp h.nodup).2⟩

/-- The history without one record. -/
def retire (history : DecisionHistory) (audit : AuditSequence) (decision : AdmissionDecisionId) :
    DecisionHistory :=
  { history with
    records := history.records.erase decision
    auditIndex := history.auditIndex.erase audit
    retired := history.retired + 1 }

theorem find_retire (audit : AuditSequence) (decision d : AdmissionDecisionId) :
    (history.retire audit decision).find d = if decision = d then none else history.find d := by
  simp [find, retire, ExtTreeMap.getElem?_erase]

section

variable {audit : AuditSequence} {decision : AdmissionDecisionId}
  {rest : List (AuditSequence × AdmissionDecisionId)}

theorem trimFrom_held (hfull : history.records.size > history.capacity)
    (hholds : ledger.holds decision = true) :
    trimFrom ledger ((audit, decision) :: rest) history = trimFrom ledger rest history := by
  rw [trimFrom, if_pos hfull, if_pos hholds]

theorem trimFrom_free (hfull : history.records.size > history.capacity)
    (hfree : ledger.holds decision = false) :
    trimFrom ledger ((audit, decision) :: rest) history =
      trimFrom ledger rest (history.retire audit decision) := by
  rw [trimFrom, if_pos hfull, if_neg (Bool.not_eq_true _ ▸ hfree)]
  rfl

theorem trimFrom_fits (hfits : ¬ history.records.size > history.capacity) :
    trimFrom ledger ((audit, decision) :: rest) history = (history, some audit) := by
  rw [trimFrom, if_neg hfits]

theorem Recorded.size_retire (h : Recorded history ((audit, decision) :: rest)) :
    (history.retire audit decision).records.size = history.records.size - 1 := by
  have hmem : decision ∈ history.records := h.mem (audit, decision) List.mem_cons_self
  exact ExtTreeMap.size_erase.trans (if_pos hmem)

theorem Recorded.retire (h : Recorded history ((audit, decision) :: rest)) :
    Recorded (history.retire audit decision) rest := by
  refine ⟨fun e he => ?_, h.tail.nodup⟩
  have hne : decision ≠ e.2 := by
    rintro rfl
    exact (List.nodup_cons.mp h.nodup).1 (List.mem_map.mpr ⟨e, he, rfl⟩)
  exact ExtTreeMap.mem_erase.mpr ⟨by simpa using hne, h.tail.mem e he⟩

end

/-- A scan removes the first unprotected entries, as many as are beyond the capacity. -/
theorem find_trimFrom {entries : List (AuditSequence × AdmissionDecisionId)}
    (hrecorded : Recorded history entries) (d : AdmissionDecisionId) :
    (trimFrom ledger entries history).1.find d =
      if d ∈ (retirable ledger entries).take (history.records.size - history.capacity) then none
      else history.find d := by
  induction entries generalizing history with
  | nil => simp [trimFrom, retirable]
  | cons entry rest ih =>
    obtain ⟨audit, decision⟩ := entry
    by_cases hfull : history.records.size > history.capacity
    · cases hholds : ledger.holds decision with
      | true =>
        have hskip : retirable ledger ((audit, decision) :: rest) = retirable ledger rest := by
          simp [retirable, hholds]
        rw [trimFrom_held hfull hholds, hskip, ih hrecorded.tail]
      | false =>
        -- the head is the first to go, and the rest has one record less to remove
        have hfirst : retirable ledger ((audit, decision) :: rest) =
            decision :: retirable ledger rest := by
          simp [retirable, hholds]
        have hcount : history.records.size - history.capacity =
            history.records.size - 1 - (history.retire audit decision).capacity + 1 := by
          change history.records.size - history.capacity =
            history.records.size - 1 - history.capacity + 1
          omega
        rw [trimFrom_free hfull hholds, ih hrecorded.retire, hfirst, hcount,
          List.take_succ_cons, hrecorded.size_retire, find_retire]
        by_cases heq : decision = d
        · simp [heq]
        · simp [heq, Ne.symm heq]
    · have hnone : history.records.size - history.capacity = 0 := by omega
      rw [trimFrom_fits hfull, hnone, List.take_zero]
      rfl

theorem size_or_find_trimFrom (ledger : AdmittedLoadLedger)
    {entries : List (AuditSequence × AdmissionDecisionId)} (hrecorded : Recorded history entries) :
    (trimFrom ledger entries history).1.records.size ≤ history.capacity ∨
      ∀ e ∈ entries, ledger.holds e.2 = false →
        (trimFrom ledger entries history).1.find e.2 = none := by
  induction entries generalizing history with
  | nil => exact Or.inr (by simp)
  | cons entry rest ih =>
    obtain ⟨audit, decision⟩ := entry
    by_cases hfull : history.records.size > history.capacity
    · cases hholds : ledger.holds decision with
      | true =>
        rw [trimFrom_held hfull hholds]
        refine (ih hrecorded.tail).imp_right fun hgone e he hfree => ?_
        rcases List.mem_cons.mp he with rfl | he
        · rw [hholds] at hfree
          cases hfree
        · exact hgone e he hfree
      | false =>
        rw [trimFrom_free hfull hholds]
        refine (ih hrecorded.retire).imp_right fun hgone e he hfree => ?_
        rcases List.mem_cons.mp he with rfl | he
        · rw [find_trimFrom hrecorded.retire, find_retire, if_pos rfl, ite_self]
        · exact hgone e he hfree
    · rw [trimFrom_fits hfull]
      exact Or.inl (Nat.not_lt.mp hfull)

theorem holds_before_stop {entries : List (AuditSequence × AdmissionDecisionId)}
    (hlisted : ∀ e ∈ entries, history.auditIndex[e.1]? = some e.2)
    (hsorted : entries.Pairwise fun e e' => e.1 < e'.1)
    {e : AuditSequence × AdmissionDecisionId} (he : e ∈ entries)
    (hbefore : ∀ stop ∈ (trimFrom ledger entries history).2, e.1 < stop)
    (hstill : (trimFrom ledger entries history).1.auditIndex[e.1]? = some e.2) :
    ledger.holds e.2 = true := by
  induction entries generalizing history with
  | nil => simp at he
  | cons entry rest ih =>
    obtain ⟨audit, decision⟩ := entry
    obtain ⟨hhead, hrest⟩ := List.pairwise_cons.mp hsorted
    by_cases hfull : history.records.size > history.capacity
    · cases hholds : ledger.holds decision with
      | true =>
        rw [trimFrom_held hfull hholds] at hbefore hstill
        rcases List.mem_cons.mp he with rfl | he
        · exact hholds
        · exact ih (fun e he => hlisted e (List.mem_cons_of_mem _ he)) hrest he hbefore hstill
      | false =>
        rw [trimFrom_free hfull hholds] at hbefore hstill
        have hlisted' : ∀ e ∈ rest,
            (history.retire audit decision).auditIndex[e.1]? = some e.2 := by
          intro e he
          have hne := Nat.ne_of_lt (hhead e he)
          simpa [retire, ExtTreeMap.getElem?_erase, hne] using
            hlisted e (List.mem_cons_of_mem _ he)
        rcases List.mem_cons.mp he with rfl | he
        · -- the entry was retired, and a scan lists nothing that was not listed
          have hretires := trimFrom_retires ledger rest (history.retire audit decision) hlisted'
            (hrest.imp fun h => Nat.ne_of_lt h)
          have hgone := hretires.index_of_index _ _ hstill
          simp [retire] at hgone
        · exact ih hlisted' hrest he hbefore hstill
    · rw [trimFrom_fits hfull] at hbefore
      have hlt := hbefore audit rfl
      rcases List.mem_cons.mp he with rfl | he
      · exact absurd hlt (Nat.lt_irrefl _)
      · exact absurd (Nat.lt_trans hlt (hhead e he)) (Nat.lt_irrefl _)

theorem mem_of_stop {entries : List (AuditSequence × AdmissionDecisionId)} {stop : AuditSequence}
    (h : (trimFrom ledger entries history).2 = some stop) : ∃ e ∈ entries, e.1 = stop := by
  induction entries generalizing history with
  | nil => cases h
  | cons entry rest ih =>
    rw [trimFrom] at h
    split at h
    · split at h
      · obtain ⟨e, he, hstop⟩ := ih h
        exact ⟨e, List.mem_cons_of_mem _ he, hstop⟩
      · obtain ⟨e, he, hstop⟩ := ih h
        exact ⟨e, List.mem_cons_of_mem _ he, hstop⟩
    · exact ⟨_, List.mem_cons_self, Option.some.inj h⟩

/-! ### Retirement -/

theorem Indexed.map_decision_inAuditOrder (hidx : history.Indexed) :
    history.inAuditOrder.map (·.decision) = history.auditIndex.toList.map Prod.snd := by
  have hall : ∀ e ∈ history.auditIndex.toList,
      (history.records[e.2]?).map (·.decision) = some e.2 := by
    intro e he
    obtain ⟨record, hrecord, -⟩ :=
      hidx.recorded e.1 e.2 (ExtTreeMap.mem_toList_iff_getElem?_eq_some.mp he)
    rw [hrecord, Option.map_some, (hidx.listed _ _ hrecord).1]
  rw [inAuditOrder, List.map_filterMap, List.filterMap_congr hall, ← List.filterMap_eq_map]
  rfl

/-- Every record before the cursor is protected. -/
def CursorSound (history : DecisionHistory) (ledger : AdmittedLoadLedger) : Prop :=
  ∀ (a : AuditSequence) (d : AdmissionDecisionId),
    history.auditIndex[a]? = some d → a < history.cursorAudit → ledger.holds d = true

/-- The entries that a call of retirement scans. -/
def scanned (history : DecisionHistory) : List (AuditSequence × AdmissionDecisionId) :=
  history.auditIndex.toList.dropWhile (·.1 < history.cursorAudit)

theorem Indexed.recorded_scanned (hidx : history.Indexed) :
    Recorded history history.scanned where
  mem e he := by
    have hlisted := ExtTreeMap.mem_toList_iff_getElem?_eq_some.mp
      ((List.dropWhile_sublist _).mem he)
    obtain ⟨record, hrecord, -⟩ := hidx.recorded e.1 e.2 hlisted
    exact ExtTreeMap.mem_iff_isSome_getElem?.mpr (by rw [hrecord]; rfl)
  nodup := by
    have hnodup := hidx.nodup_decisions_inAuditOrder
    rw [hidx.map_decision_inAuditOrder] at hnodup
    exact hnodup.sublist ((List.dropWhile_sublist _).map _)

theorem retirable_scanned (hsound : history.CursorSound ledger) :
    retirable ledger history.scanned = retirable ledger history.auditIndex.toList := by
  have hskipped : retirable ledger
      (history.auditIndex.toList.takeWhile (·.1 < history.cursorAudit)) = [] := by
    rw [retirable, List.filter_eq_nil_iff]
    intro decision hmem
    obtain ⟨e, he, rfl⟩ := List.mem_map.mp hmem
    have hbefore := List.mem_takeWhile_imp he
    have hlisted := ExtTreeMap.mem_toList_iff_getElem?_eq_some.mp
      ((List.takeWhile_sublist _).mem he)
    simp [hsound _ _ hlisted (of_decide_eq_true hbefore)]
  have hsplit : history.auditIndex.toList.takeWhile (·.1 < history.cursorAudit) ++
      history.scanned = history.auditIndex.toList := List.takeWhile_append_dropWhile
  calc retirable ledger history.scanned
      = retirable ledger (history.auditIndex.toList.takeWhile (·.1 < history.cursorAudit)) ++
          retirable ledger history.scanned := by rw [hskipped, List.nil_append]
    _ = retirable ledger history.auditIndex.toList := by
      rw [retirable, retirable, ← List.filter_append, ← List.map_append, hsplit, retirable]

/-- Where the next scan resumes. -/
def resumeAt (result : DecisionHistory × Option AuditSequence) : AuditSequence :=
  result.2.getD ((result.1.auditIndex.maxKey?.map (· + 1)).getD 0)

theorem trim_of_full (hfull : ¬ history.records.size ≤ history.capacity) :
    history.trim ledger = { (trimFrom ledger history.scanned history).1 with
      cursorAudit := resumeAt (trimFrom ledger history.scanned history) } := by
  rw [trim, if_neg hfull]
  unfold scanned
  rcases trimFrom ledger _ history with ⟨trimmed, _ | audit⟩
  · rfl
  · rfl

theorem find_trim (hidx : history.Indexed) (hsound : history.CursorSound ledger)
    (d : AdmissionDecisionId) :
    (history.trim ledger).find d =
      if d ∈ (history.surplus ledger).map (·.decision) then none else history.find d := by
  have hsurplus : (history.surplus ledger).map (·.decision) =
      (retirable ledger history.scanned).take (history.records.size - history.capacity) := by
    rw [retirable_scanned hsound, retirable, ← hidx.map_decision_inAuditOrder, surplus,
      List.map_take, List.filter_map]
    rfl
  rw [hsurplus]
  by_cases hfits : history.records.size ≤ history.capacity
  · have hnone : history.records.size - history.capacity = 0 := by omega
    rw [trim, if_pos hfits, hnone, List.take_zero]
    rfl
  · rw [trim_of_full hfits]
    exact find_trimFrom hidx.recorded_scanned d

theorem size_trim_or_holds (hidx : history.Indexed) (hsound : history.CursorSound ledger) :
    (history.trim ledger).records.size ≤ (history.trim ledger).capacity ∨
      ∀ d record, (history.trim ledger).find d = some record → ledger.holds d = true := by
  have hcapacity := (trim_retires history ledger).capacity_eq
  rw [hcapacity]
  by_cases hfits : history.records.size ≤ history.capacity
  · rw [trim, if_pos hfits]
    exact Or.inl hfits
  · rcases size_or_find_trimFrom ledger hidx.recorded_scanned with hsize | hgone
    · rw [trim_of_full hfits]
      exact Or.inl hsize
    · refine Or.inr fun d record hfind => ?_
      by_contra hfree
      have hlisted := hidx.listed d record ((trim_retires history ledger).find_of_find d _ hfind)
      have hmem : d ∈ retirable ledger history.scanned := by
        rw [retirable_scanned hsound, retirable, List.mem_filter]
        refine ⟨List.mem_map.mpr ⟨(record.audit, d), ?_, rfl⟩, by simpa using hfree⟩
        exact ExtTreeMap.mem_toList_iff_getElem?_eq_some.mpr hlisted.2.2
      obtain ⟨e, he, rfl⟩ := List.mem_map.mp (List.mem_filter.mp hmem).1
      have hnone := hgone e he (by simpa using hfree)
      rw [trim_of_full hfits] at hfind
      exact Option.some_ne_none _ (hfind.symm.trans hnone)

theorem cursorSound_trim (hsound : history.CursorSound ledger) :
    (history.trim ledger).CursorSound ledger := by
  by_cases hfits : history.records.size ≤ history.capacity
  · rw [trim, if_pos hfits]
    exact fun a d _ hlt => absurd hlt (Nat.not_lt_zero _)
  · intro a d hstill hlt
    have hlisted := (trim_retires history ledger).index_of_index a d hstill
    rw [trim_of_full hfits] at hstill hlt
    have hmem := ExtTreeMap.mem_toList_iff_getElem?_eq_some.mpr hlisted
    rw [← List.takeWhile_append_dropWhile (p := (·.1 < history.cursorAudit))
      (l := history.auditIndex.toList)] at hmem
    rcases List.mem_append.mp hmem with hskipped | hscanned
    · have hbefore := List.mem_takeWhile_imp hskipped
      exact hsound a d hlisted (of_decide_eq_true hbefore)
    · refine holds_before_stop
        (fun e he => ExtTreeMap.mem_toList_iff_getElem?_eq_some.mp
          ((List.dropWhile_sublist _).mem he))
        ((toList_auditIndex_ordered history).sublist (List.dropWhile_sublist _)) hscanned ?_ hstill
      intro stop hstop
      rw [resumeAt, show (trimFrom ledger history.scanned history).2 = some stop from hstop]
        at hlt
      exact hlt

theorem cursorAudit_trim_le {next : AuditSequence}
    (hassigned : ∀ (a : AuditSequence) (d : AdmissionDecisionId),
      history.auditIndex[a]? = some d → a < next) :
    (history.trim ledger).cursorAudit ≤ next := by
  by_cases hfits : history.records.size ≤ history.capacity
  · rw [trim, if_pos hfits]
    exact Nat.zero_le _
  · have hretires := trim_retires history ledger
    rw [trim_of_full hfits] at hretires ⊢
    rw [resumeAt]
    cases hstop : (trimFrom ledger history.scanned history).2 with
    | some stop =>
      obtain ⟨e, he, rfl⟩ := mem_of_stop hstop
      exact Nat.le_of_lt (hassigned e.1 e.2 (ExtTreeMap.mem_toList_iff_getElem?_eq_some.mp
        ((List.dropWhile_sublist _).mem he)))
    | none =>
      cases hmax : (trimFrom ledger history.scanned history).1.auditIndex.maxKey? with
      | none => exact Nat.zero_le _
      | some last =>
        have hmem := ExtTreeMap.maxKey?_mem hmax
        rw [ExtTreeMap.mem_iff_isSome_getElem?, Option.isSome_iff_exists] at hmem
        obtain ⟨d, hd⟩ := hmem
        exact hassigned last d (hretires.index_of_index last d hd)

end DecisionHistory

/-! ### Runs -/

/-- A history, the ledger that protects its records, and the next audit sequence. -/
structure Retention where
  history : DecisionHistory := {}
  ledger : AdmittedLoadLedger := {}
  nextAudit : AuditSequence := 0

/-- What happens to a history and its ledger. -/
inductive RetentionEvent
  | insert (record : DecisionRecord)
  | trim
  | reserve (decision : AdmissionDecisionId) (demand : DemandId) (epoch : FabricEpoch)
      (boundCapacityGeneration : Generation) (path : PathId) (amounts : List (ResourceId × Rate))
  | release (decision : AdmissionDecisionId)

namespace Retention

open TransitionSystem (Reachable)

/-- The retention after an event. -/
def step (retention : Retention) : RetentionEvent → Retention
  | .insert record =>
    { retention with
      history := retention.history.insert record
      nextAudit := record.audit + 1 }
  | .trim => { retention with history := retention.history.trim retention.ledger }
  | .reserve decision demand epoch boundCapacityGeneration path amounts =>
    { retention with
      ledger := (retention.ledger.reserve decision demand epoch boundCapacityGeneration path
        amounts).2 }
  | .release decision =>
    match retention.ledger.release decision with
    | .error _ => retention
    | .ok (_, ledger) => { retention with ledger, history := retention.history.noteRelease }

/-- Records are inserted under fresh identities, with increasing audit sequences. -/
def guard (retention : Retention) : RetentionEvent → Prop
  | .insert record =>
    retention.history.find record.decision = none ∧ retention.nextAudit ≤ record.audit
  | _ => True

/-- An empty history of any capacity beside any ledger. -/
def Initial (retention : Retention) : Prop :=
  ∃ capacity, retention.history = { capacity }

/-- The index and the cursor are sound and behind the audit sequences still to come. -/
structure Sound (retention : Retention) : Prop where
  indexed : retention.history.Indexed
  cursor : retention.history.CursorSound retention.ledger
  assigned : ∀ (a : AuditSequence) (d : AdmissionDecisionId),
    retention.history.auditIndex[a]? = some d → a < retention.nextAudit
  reached : retention.history.cursorAudit ≤ retention.nextAudit

namespace Sound

variable {retention : Retention}

theorem initial (h : retention.Initial) : retention.Sound := by
  obtain ⟨capacity, hhistory⟩ := h
  refine ⟨?_, ?_, ?_, ?_⟩
  · rw [hhistory]
    exact .empty capacity
  · intro a d _ hlt
    rw [hhistory] at hlt
    exact absurd hlt (Nat.not_lt_zero _)
  · intro a d ha
    rw [hhistory] at ha
    simp at ha
  · rw [hhistory]
    exact Nat.zero_le _

theorem insert (h : retention.Sound) {record : DecisionRecord}
    (hfresh : retention.history.find record.decision = none)
    (haudit : retention.nextAudit ≤ record.audit) :
    (retention.step (.insert record)).Sound := by
  have hlater : retention.nextAudit ≤ record.audit + 1 := Nat.le_succ_of_le haudit
  by_cases hzero : record.decision = 0
  · have hsame : retention.step (.insert record) =
        { retention with nextAudit := record.audit + 1 } := by
      rw [step, DecisionHistory.insert, if_pos hzero]
    rw [hsame]
    exact ⟨h.indexed, h.cursor, fun a d ha => (h.assigned a d ha).trans_le hlater,
      h.reached.trans hlater⟩
  · have hunlisted : retention.history.auditIndex[record.audit]? = none := by
      rw [Option.eq_none_iff_forall_ne_some]
      intro d hd
      exact absurd (h.assigned _ d hd) (Nat.not_lt.mpr haudit)
    have hins : retention.history.insert record = { retention.history with
        auditIndex := retention.history.auditIndex.insert record.audit record.decision
        records := retention.history.records.insert record.decision record } := by
      rw [DecisionHistory.find] at hfresh
      simp [DecisionHistory.insert, hzero, hfresh]
    -- what is listed afterwards was listed before, or is the new record
    have hlisted : ∀ (a : AuditSequence) (d : AdmissionDecisionId),
        (retention.history.insert record).auditIndex[a]? = some d →
          a = record.audit ∨ retention.history.auditIndex[a]? = some d := by
      intro a d ha
      rw [hins, ExtTreeMap.getElem?_insert] at ha
      split at ha
      · rename_i heq
        exact Or.inl (Std.compare_eq_iff_eq.mp heq).symm
      · exact Or.inr ha
    have hcursor : (retention.history.insert record).cursorAudit =
        retention.history.cursorAudit := by rw [hins]
    refine ⟨h.indexed.insert hzero hfresh hunlisted, ?_, ?_, ?_⟩
    · intro a d ha hlt
      rw [step, hcursor] at hlt
      rcases hlisted a d ha with rfl | ha
      · exact absurd (hlt.trans_le (h.reached.trans haudit)) (Nat.lt_irrefl _)
      · exact h.cursor a d ha hlt
    · intro a d ha
      rcases hlisted a d ha with rfl | ha
      · exact Nat.lt_succ_self _
      · exact (h.assigned a d ha).trans_le hlater
    · rw [step, hcursor]
      exact h.reached.trans hlater

theorem trim (h : retention.Sound) : (retention.step .trim).Sound := by
  have hretires := retention.history.trim_retires retention.ledger
  refine ⟨hretires.indexed h.indexed, DecisionHistory.cursorSound_trim h.cursor, ?_, ?_⟩
  · intro a d ha
    exact h.assigned a d (hretires.index_of_index a d ha)
  · exact DecisionHistory.cursorAudit_trim_le h.assigned

theorem reserve (h : retention.Sound) (decision : AdmissionDecisionId) (demand : DemandId)
    (epoch : FabricEpoch) (generation : Generation) (path : PathId)
    (amounts : List (ResourceId × Rate)) :
    (retention.step (.reserve decision demand epoch generation path amounts)).Sound :=
  ⟨h.indexed, fun a d ha hlt => AdmittedLoadLedger.holds_reserve (h.cursor a d ha hlt),
    h.assigned, h.reached⟩

theorem release (h : retention.Sound) (decision : AdmissionDecisionId) :
    (retention.step (.release decision)).Sound := by
  rw [step]
  cases retention.ledger.release decision with
  | error status => exact h
  | ok released =>
    exact ⟨⟨h.indexed.listed, h.indexed.recorded⟩,
      fun a d _ hlt => absurd hlt (Nat.not_lt_zero _), h.assigned, Nat.zero_le _⟩

end Sound

theorem sound_of_reachable {retention : Retention}
    (h : Reachable Initial step guard retention) : retention.Sound := by
  refine h.invariant (fun _ => Sound.initial) fun retention event hsound hguard => ?_
  cases event with
  | insert record => exact hsound.insert hguard.1 hguard.2
  | trim => exact hsound.trim
  | reserve decision demand epoch generation path amounts =>
    exact hsound.reserve decision demand epoch generation path amounts
  | release decision => exact hsound.release decision

/-- Whatever happened before, a call of `trim` reaches the capacity or leaves protected records
only, removes no protected record, and removes exactly the oldest unprotected records that are
needed to reach the capacity. These are the records that a scan from the oldest record on
removes. -/
theorem retirement_exact {retention : Retention} (h : Reachable Initial step guard retention) :
    ((retention.history.trim retention.ledger).records.size ≤
        (retention.history.trim retention.ledger).capacity ∨
      ∀ d record, (retention.history.trim retention.ledger).find d = some record →
        retention.ledger.holds d = true) ∧
    (∀ d record, retention.history.find d = some record → retention.ledger.holds d = true →
      (retention.history.trim retention.ledger).find d = some record) ∧
    (∀ d, (retention.history.trim retention.ledger).find d =
      if d ∈ (retention.history.surplus retention.ledger).map (·.decision) then none
      else retention.history.find d) ∧
    (retention.history.trim retention.ledger).records =
      (retention.history.noteRelease.trim retention.ledger).records := by
  obtain ⟨hidx, hcursor, -, -⟩ := sound_of_reachable h
  refine ⟨DecisionHistory.size_trim_or_holds hidx hcursor, ?_,
    DecisionHistory.find_trim hidx hcursor, ?_⟩
  · intro d record hfind hholds
    rw [(retention.history.trim_retires retention.ledger).find_of_holds d hholds]
    exact hfind
  · -- a scan from the front removes the same surplus
    have hidx' : retention.history.noteRelease.Indexed := ⟨hidx.listed, hidx.recorded⟩
    have hcursor' : retention.history.noteRelease.CursorSound retention.ledger :=
      fun a d _ hlt => absurd hlt (Nat.not_lt_zero _)
    refine ExtTreeMap.ext_getElem? fun d => ?_
    exact (DecisionHistory.find_trim hidx hcursor d).trans
      (DecisionHistory.find_trim hidx' hcursor' d).symm

/-- Two records in a history with room for one. The load of the first decision is admitted. -/
def overfull : Retention :=
  TransitionSystem.run step { history := { capacity := 1 } }
    [.insert { decision := 1, audit := 1 }, .reserve 1 1 1 1 0 [(7, 20)],
      .insert { decision := 2, audit := 2 }]

theorem reachable_overfull : Reachable Initial step guard overfull := by
  refine Reachable.run (.init ⟨1, rfl⟩) ⟨⟨?_, ?_⟩, trivial, ⟨?_, ?_⟩, trivial⟩
  all_goals decide +kernel

/-- The later record goes, because the load of the earlier one is admitted. -/
theorem retirement_overfull :
    (overfull.history.trim overfull.ledger).find 1 = some { decision := 1, audit := 1 } ∧
      (overfull.history.trim overfull.ledger).find 2 = none :=
  ⟨(retirement_exact reachable_overfull).2.1 1 _ (by decide +kernel) (by decide +kernel),
    ((retirement_exact reachable_overfull).2.2.1 2).trans (by decide +kernel)⟩

end Retention

end AdmissionFabric
