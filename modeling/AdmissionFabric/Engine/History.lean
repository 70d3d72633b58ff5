import AdmissionFabric.Engine.Decision
import AdmissionFabric.Engine.Ledger

/-!
# Decision history

The bounded history of decisions, keyed by decision identity, with an index from audit sequence
to decision. The audit index is what enforcement and compaction iterate over. Inserting a record
whose audit sequence is already taken by another decision silently overwrites the index entry of
that decision, so the record of the other decision stays in the map but is no longer listed.

`DecisionHistory.Indexed` is the invariant under which this never happens.

Source: `include/naf/engine/history.hpp`, `src/engine/history.cpp`.
-/

namespace AdmissionFabric

open Std (ExtTreeMap)

/-- Compact record of a decision, sufficient to revalidate or revoke it. -/
structure DecisionRecord where
  decision : AdmissionDecisionId := 0
  audit : AuditSequence := 0
  outcome : AdmissionOutcome := .rejectPolicy
  request : AdmissionRequestId := 0
  demand : DemandId := 0
  demandGeneration : Generation := 0
  attempt : AttemptId := 0
  path : PathId := 0
  granted : Rate := 0
  epoch : FabricEpoch := 0
  incarnation : CoordinatorIncarnation := 0
  decidedTick : UInt64 := 0
  fingerprint : UInt64 := 0
  boundCapacityGeneration : Generation := 0
  boundPolicyGeneration : Generation := 0
  boundQosGeneration : Generation := 0
  boundPriorityGeneration : Generation := 0
  boundPathGeneration : Generation := 0
  boundReservationGeneration : Generation := 0
  state : RevalidationState := .fresh
  reason : RevocationReason := .notRevoked
  ledgerLive : Bool := false
  restoredFromDisk : Bool := false
  deriving DecidableEq, Repr

/-- Bounded decision history keyed by decision id, retained in audit order. -/
structure DecisionHistory where
  capacity : Nat := Limits.maxDecisionRecords
  records : ExtTreeMap AdmissionDecisionId DecisionRecord := ∅
  auditIndex : ExtTreeMap AuditSequence AdmissionDecisionId := ∅
  cursorAudit : AuditSequence := 0
  retired : Nat := 0

namespace DecisionHistory

variable {ledger : AdmittedLoadLedger} {d : AdmissionDecisionId}

/-- File a record and list it under its audit sequence. -/
def insert (history : DecisionHistory) (record : DecisionRecord) : DecisionHistory :=
  if record.decision = 0 then history
  else match history.records[record.decision]? with
    | some existing =>
      { history with
        auditIndex := (history.auditIndex.erase existing.audit).insert record.audit record.decision
        records := history.records.insert record.decision record }
    | none =>
      { history with
        auditIndex := history.auditIndex.insert record.audit record.decision
        records := history.records.insert record.decision record }

/-- There are more records than the capacity. -/
def needsTrim (history : DecisionHistory) : Bool := history.records.size > history.capacity

/-- The retirement scan over the audit index from the cursor on. It returns the history and the
audit sequence at which it stopped, if it stopped before the end. -/
def trimFrom (ledger : AdmittedLoadLedger) :
    List (AuditSequence × AdmissionDecisionId) → DecisionHistory →
      DecisionHistory × Option AuditSequence
  | [], history => (history, none)
  | (audit, decision) :: rest, history =>
    if history.records.size > history.capacity then
      -- a record whose grant is still live is never retired
      if ledger.holds decision then trimFrom ledger rest history
      else trimFrom ledger rest
        { history with
          records := history.records.erase decision
          auditIndex := history.auditIndex.erase audit
          retired := history.retired + 1 }
    else (history, some audit)

/-- Retire the oldest unprotected records once the capacity is exceeded. -/
def trim (history : DecisionHistory) (ledger : AdmittedLoadLedger) : DecisionHistory :=
  if history.records.size ≤ history.capacity then { history with cursorAudit := 0 }
  else
    match trimFrom ledger (history.auditIndex.toList.dropWhile (·.1 < history.cursorAudit))
        history with
    | (trimmed, some audit) => { trimmed with cursorAudit := audit }
    | (trimmed, none) =>
      { trimmed with cursorAudit := (trimmed.auditIndex.maxKey?.map (· + 1)).getD 0 }

/-- A release makes the scan start over. -/
def noteRelease (history : DecisionHistory) : DecisionHistory := { history with cursorAudit := 0 }

/-- The record of a decision. -/
def find (history : DecisionHistory) (decision : AdmissionDecisionId) : Option DecisionRecord :=
  history.records[decision]?

/-- Replace a retained record; its audit sequence is kept. -/
def update (history : DecisionHistory) (decision : AdmissionDecisionId) (record : DecisionRecord) :
    DecisionHistory :=
  match history.records[decision]? with
  | none => history
  | some existing =>
    { history with
      records := history.records.insert decision { record with audit := existing.audit } }

/-- The listed records, oldest first. -/
def inAuditOrder (history : DecisionHistory) : List DecisionRecord :=
  history.auditIndex.toList.filterMap fun entry => history.records[entry.2]?

/-! ### Effects on single records -/

theorem records_insert_ne {history : DecisionHistory} {record : DecisionRecord}
    (h : record.decision ≠ 0) :
    (history.insert record).records = history.records.insert record.decision record := by
  unfold insert
  rw [if_neg h]
  split <;> rfl

theorem find_insert {history : DecisionHistory} {record : DecisionRecord}
    (h : record.decision ≠ 0) (d : AdmissionDecisionId) :
    (history.insert record).find d = if record.decision = d then some record
      else history.find d := by
  simp [find, records_insert_ne h, ExtTreeMap.getElem?_insert]

theorem find_of_find_insert {history : DecisionHistory} {record found : DecisionRecord}
    (h : (history.insert record).find d = some found) :
    found = record ∧ d = record.decision ∨ history.find d = some found := by
  by_cases hzero : record.decision = 0
  · rw [insert, if_pos hzero] at h
    exact Or.inr h
  · rw [find_insert hzero] at h
    split at h
    · rename_i heq
      exact Or.inl ⟨(Option.some.inj h).symm, heq.symm⟩
    · exact Or.inr h

theorem auditIndex_insert_self {history : DecisionHistory} {record : DecisionRecord}
    (h : record.decision ≠ 0) :
    (history.insert record).auditIndex[record.audit]? = some record.decision := by
  unfold insert
  rw [if_neg h]
  split <;> simp

theorem find_update (history : DecisionHistory) (d : AdmissionDecisionId) (record : DecisionRecord)
    (d' : AdmissionDecisionId) :
    (history.update d record).find d' =
      if d = d' then (history.find d).map fun existing => { record with audit := existing.audit }
      else history.find d' := by
  unfold update find
  cases h : history.records[d]? with
  | none =>
    by_cases hd : d = d'
    · subst hd
      simp [h]
    · simp [hd]
  | some existing =>
    by_cases hd : d = d'
    · subst hd
      simp
    · simp [hd, ExtTreeMap.getElem?_insert]

theorem size_update (history : DecisionHistory) (d : AdmissionDecisionId)
    (record : DecisionRecord) :
    (history.update d record).records.size = history.records.size := by
  unfold update
  split
  · rfl
  · rename_i existing hexisting
    have hmem : d ∈ history.records := by
      rw [ExtTreeMap.mem_iff_isSome_getElem?, hexisting]
      rfl
    exact ExtTreeMap.size_insert.trans (if_pos hmem)

theorem size_insert_le (history : DecisionHistory) (record : DecisionRecord) :
    (history.insert record).records.size ≤ history.records.size + 1 := by
  by_cases hzero : record.decision = 0
  · rw [insert, if_pos hzero]
    exact Nat.le_succ _
  · rw [records_insert_ne hzero]
    exact ExtTreeMap.size_insert_le

@[simp] theorem capacity_insert (history : DecisionHistory) (record : DecisionRecord) :
    (history.insert record).capacity = history.capacity := by
  unfold insert
  split
  · rfl
  · split <;> rfl

@[simp] theorem capacity_update (history : DecisionHistory) (d : AdmissionDecisionId)
    (record : DecisionRecord) : (history.update d record).capacity = history.capacity := by
  unfold update
  split <;> rfl

/-! ### The index invariant -/

/-- Every record is listed under its own audit sequence, and every listed decision has one. -/
structure Indexed (history : DecisionHistory) : Prop where
  listed : ∀ (d : AdmissionDecisionId) (record : DecisionRecord),
    history.records[d]? = some record →
      record.decision = d ∧ d ≠ 0 ∧ history.auditIndex[record.audit]? = some d
  recorded : ∀ (a : AuditSequence) (d : AdmissionDecisionId),
    history.auditIndex[a]? = some d → ∃ record, history.records[d]? = some record ∧ record.audit = a

theorem Indexed.empty (capacity : Nat) : ({ capacity } : DecisionHistory).Indexed where
  listed d record h := by simp at h
  recorded a d h := by simp at h

namespace Indexed

variable {history : DecisionHistory}

theorem audit_injective (hidx : history.Indexed) {d' : AdmissionDecisionId}
    {r r' : DecisionRecord} (h : history.find d = some r) (h' : history.find d' = some r')
    (haudit : r.audit = r'.audit) : d = d' := by
  have hd := (hidx.listed d r h).2.2
  rw [haudit, (hidx.listed d' r' h').2.2] at hd
  exact (Option.some.inj hd).symm

theorem insert (hidx : history.Indexed) {record : DecisionRecord} (hne : record.decision ≠ 0)
    (hfresh : history.find record.decision = none)
    (haudit : history.auditIndex[record.audit]? = none) : (history.insert record).Indexed := by
  have hins : history.insert record = { history with
      auditIndex := history.auditIndex.insert record.audit record.decision
      records := history.records.insert record.decision record } := by
    unfold DecisionHistory.insert
    rw [find] at hfresh
    simp [hne, hfresh]
  rw [hins]
  refine ⟨?_, ?_⟩
  · intro d r h
    simp only [ExtTreeMap.getElem?_insert, Std.compare_eq_iff_eq] at h ⊢
    split at h
    · rename_i heq
      obtain rfl := Option.some.inj h
      exact ⟨heq, heq ▸ hne, by simp [heq]⟩
    · obtain ⟨hdec, hd, hlist⟩ := hidx.listed d r h
      refine ⟨hdec, hd, ?_⟩
      rw [if_neg fun heq => by rw [heq, hlist] at haudit; simp at haudit]
      exact hlist
  · intro a d h
    simp only [ExtTreeMap.getElem?_insert, Std.compare_eq_iff_eq] at h ⊢
    split at h
    · rename_i heq
      obtain rfl := Option.some.inj h
      exact ⟨record, by simp, heq⟩
    · obtain ⟨r, hr, hra⟩ := hidx.recorded a d h
      refine ⟨r, ?_, hra⟩
      rw [if_neg fun heq => by rw [find, heq, hr] at hfresh; simp at hfresh]
      exact hr

theorem update (hidx : history.Indexed) {record : DecisionRecord} (hdec : record.decision = d) :
    (history.update d record).Indexed := by
  unfold DecisionHistory.update
  cases hex : history.records[d]? with
  | none => exact hidx
  | some existing =>
    refine ⟨?_, ?_⟩
    · intro d' r h
      simp only [ExtTreeMap.getElem?_insert, Std.compare_eq_iff_eq] at h
      split at h
      · rename_i heq
        subst heq
        obtain rfl := Option.some.inj h
        exact ⟨hdec, (hidx.listed d existing hex).2⟩
      · exact hidx.listed d' r h
    · intro a d' h
      obtain ⟨r, hr, hra⟩ := hidx.recorded a d' h
      simp only [ExtTreeMap.getElem?_insert, Std.compare_eq_iff_eq]
      by_cases heq : d = d'
      · subst heq
        rw [hex] at hr
        obtain rfl := Option.some.inj hr
        exact ⟨_, if_pos rfl, hra⟩
      · exact ⟨r, by rw [if_neg heq]; exact hr, hra⟩

theorem erase (hidx : history.Indexed) {a : AuditSequence} (h : history.auditIndex[a]? = some d)
    (retired : Nat) :
    ({ history with
        records := history.records.erase d
        auditIndex := history.auditIndex.erase a
        retired } : DecisionHistory).Indexed := by
  obtain ⟨r, hr, hra⟩ := hidx.recorded a d h
  refine ⟨?_, ?_⟩
  · intro d' r' h'
    simp only [ExtTreeMap.getElem?_erase, Std.compare_eq_iff_eq] at h' ⊢
    split at h'
    · simp at h'
    · rename_i hne
      obtain ⟨hdec, hd', hlist⟩ := hidx.listed d' r' h'
      refine ⟨hdec, hd', ?_⟩
      rw [if_neg fun heq => hne (hidx.audit_injective hr h' (hra.trans heq))]
      exact hlist
  · intro a' d' h'
    simp only [ExtTreeMap.getElem?_erase, Std.compare_eq_iff_eq] at h' ⊢
    split at h'
    · simp at h'
    · rename_i hne
      obtain ⟨r', hr', hra'⟩ := hidx.recorded a' d' h'
      refine ⟨r', ?_, hra'⟩
      have hdd : d ≠ d' := by
        rintro rfl
        rw [hr] at hr'
        obtain rfl := Option.some.inj hr'
        exact hne (hra.symm.trans hra')
      rw [if_neg hdd]
      exact hr'

end Indexed

/-! ### Retirement -/

/-- Retirement may drop records, but never that of a decision that holds load. -/
structure Retires (ledger : AdmittedLoadLedger) (history history' : DecisionHistory) : Prop where
  capacity_eq : history'.capacity = history.capacity
  find_of_find : ∀ d record, history'.find d = some record → history.find d = some record
  find_of_holds : ∀ d, ledger.holds d = true → history'.find d = history.find d
  indexed : history.Indexed → history'.Indexed
  index_of_index : ∀ (a : AuditSequence) (d : AdmissionDecisionId),
    history'.auditIndex[a]? = some d → history.auditIndex[a]? = some d
  index_of_holds : ∀ (a : AuditSequence) (d : AdmissionDecisionId), ledger.holds d = true →
    history.auditIndex[a]? = some d → history'.auditIndex[a]? = some d

theorem Retires.refl (ledger : AdmittedLoadLedger) (history : DecisionHistory) :
    Retires ledger history history :=
  ⟨rfl, fun _ _ h => h, fun _ _ => rfl, id, fun _ _ h => h, fun _ _ _ h => h⟩

theorem Retires.trans {h₁ h₂ h₃ : DecisionHistory} (h : Retires ledger h₁ h₂)
    (h' : Retires ledger h₂ h₃) : Retires ledger h₁ h₃ where
  capacity_eq := h'.capacity_eq.trans h.capacity_eq
  find_of_find d r hr := h.find_of_find d r (h'.find_of_find d r hr)
  find_of_holds d hd := (h'.find_of_holds d hd).trans (h.find_of_holds d hd)
  indexed hidx := h'.indexed (h.indexed hidx)
  index_of_index a d ha := h.index_of_index a d (h'.index_of_index a d ha)
  index_of_holds a d hd ha := h'.index_of_holds a d hd (h.index_of_holds a d hd ha)

theorem Retires.withCursor {history history' : DecisionHistory}
    (h : Retires ledger history history') (cursorAudit : AuditSequence) :
    Retires ledger history { history' with cursorAudit } :=
  ⟨h.capacity_eq, h.find_of_find, h.find_of_holds,
    fun hidx => ⟨(h.indexed hidx).listed, (h.indexed hidx).recorded⟩, h.index_of_index,
    h.index_of_holds⟩

theorem trimFrom_retires (ledger : AdmittedLoadLedger)
    (entries : List (AuditSequence × AdmissionDecisionId)) (history : DecisionHistory)
    (hlisted : ∀ e ∈ entries, history.auditIndex[e.1]? = some e.2)
    (hdistinct : entries.Pairwise fun e e' => e.1 ≠ e'.1) :
    Retires ledger history (trimFrom ledger entries history).1 := by
  induction entries generalizing history with
  | nil => exact Retires.refl ledger history
  | cons entry rest ih =>
    obtain ⟨audit, decision⟩ := entry
    obtain ⟨hne, hrest⟩ := List.pairwise_cons.mp hdistinct
    have hhead := hlisted _ List.mem_cons_self
    simp only [trimFrom]
    split
    · split
      · exact ih history (fun e he => hlisted e (List.mem_cons_of_mem _ he)) hrest
      · rename_i hfree
        refine Retires.trans ?_ (ih _ ?_ hrest)
        · -- one retirement: the entry is listed and its decision holds nothing
          refine ⟨rfl, ?_, ?_, fun hidx => hidx.erase hhead _, ?_, ?_⟩
          · intro d record h
            simp only [find, ExtTreeMap.getElem?_erase] at h ⊢
            split at h
            · simp at h
            · exact h
          · intro d hd
            have hdd : decision ≠ d := fun heq => hfree (heq ▸ hd)
            simp [find, ExtTreeMap.getElem?_erase, hdd]
          · intro a d h
            simp only [ExtTreeMap.getElem?_erase] at h
            split at h
            · simp at h
            · exact h
          · intro a d hd ha
            have haa : audit ≠ a := by
              rintro rfl
              obtain rfl : decision = d := Option.some.inj (hhead.symm.trans ha)
              exact hfree hd
            simpa [ExtTreeMap.getElem?_erase, haa] using ha
        · intro e he
          have hea : audit ≠ e.1 := hne e he
          simp only [ExtTreeMap.getElem?_erase, Std.compare_eq_iff_eq, hea, ↓reduceIte]
          exact hlisted e (List.mem_cons_of_mem _ he)
    · exact Retires.refl ledger history

theorem toList_auditIndex_ordered (history : DecisionHistory) :
    history.auditIndex.toList.Pairwise fun e e' => e.1 < e'.1 :=
  history.auditIndex.ordered_keys_toList.imp fun h => Nat.compare_eq_lt.mp h

theorem trim_retires (history : DecisionHistory) (ledger : AdmittedLoadLedger) :
    Retires ledger history (history.trim ledger) := by
  unfold trim
  split
  · exact (Retires.refl ledger history).withCursor 0
  · have hsub : (history.auditIndex.toList.dropWhile (·.1 < history.cursorAudit)).Sublist
        history.auditIndex.toList := List.dropWhile_sublist _
    have hret := trimFrom_retires ledger
      (history.auditIndex.toList.dropWhile (·.1 < history.cursorAudit)) history
      (fun e he => ExtTreeMap.mem_toList_iff_getElem?_eq_some.mp (hsub.mem he))
      (((toList_auditIndex_ordered history).sublist hsub).imp fun h => Nat.ne_of_lt h)
    split
    · rename_i trimmed audit heq
      rw [heq] at hret
      exact hret.withCursor audit
    · rename_i trimmed heq
      rw [heq] at hret
      exact hret.withCursor _

/-! ### The audit order -/

namespace Indexed

variable {history : DecisionHistory}

theorem find_of_mem_inAuditOrder (hidx : history.Indexed) {record : DecisionRecord}
    (h : record ∈ history.inAuditOrder) : history.find record.decision = some record := by
  obtain ⟨⟨a, d⟩, -, hrec⟩ := List.mem_filterMap.mp h
  exact (hidx.listed d record hrec).1 ▸ hrec

theorem mem_inAuditOrder_iff (hidx : history.Indexed) {record : DecisionRecord} :
    record ∈ history.inAuditOrder ↔ history.find record.decision = some record := by
  refine ⟨hidx.find_of_mem_inAuditOrder, fun h => ?_⟩
  refine List.mem_filterMap.mpr ⟨(record.audit, record.decision), ?_, h⟩
  exact ExtTreeMap.mem_toList_iff_getElem?_eq_some.mpr (hidx.listed _ _ h).2.2

theorem pairwise_inAuditOrder (hidx : history.Indexed) :
    history.inAuditOrder.Pairwise fun r r' => r.audit < r'.audit := by
  refine List.pairwise_filterMap.mpr ((List.Pairwise.and_mem.mp
    (toList_auditIndex_ordered history)).imp ?_)
  rintro ⟨a, d⟩ ⟨a', d'⟩ ⟨hmem, hmem', hlt⟩ r hr r' hr'
  obtain ⟨s, hs, hsa⟩ := hidx.recorded a d (ExtTreeMap.mem_toList_iff_getElem?_eq_some.mp hmem)
  obtain ⟨s', hs', hsa'⟩ :=
    hidx.recorded a' d' (ExtTreeMap.mem_toList_iff_getElem?_eq_some.mp hmem')
  obtain rfl := Option.some.inj (hs.symm.trans hr)
  obtain rfl := Option.some.inj (hs'.symm.trans hr')
  rw [hsa, hsa']
  exact hlt

theorem nodup_decisions_inAuditOrder (hidx : history.Indexed) :
    (history.inAuditOrder.map (·.decision)).Nodup := by
  refine List.pairwise_map.mpr ((List.Pairwise.and_mem.mp hidx.pairwise_inAuditOrder).imp ?_)
  rintro r r' ⟨hr, hr', hlt⟩ heq
  have h := hidx.find_of_mem_inAuditOrder hr
  rw [heq, hidx.find_of_mem_inAuditOrder hr'] at h
  obtain rfl := Option.some.inj h
  exact Nat.lt_irrefl _ hlt

theorem count_inAuditOrder (hidx : history.Indexed) {record : DecisionRecord}
    (h : history.find d = some record) : (history.inAuditOrder.map (·.decision)).count d = 1 := by
  refine List.count_eq_one_of_mem hidx.nodup_decisions_inAuditOrder ?_
  have hdec : record.decision = d := (hidx.listed d record h).1
  exact List.mem_map.mpr ⟨record, hidx.mem_inAuditOrder_iff.mpr (hdec ▸ h), hdec⟩

end Indexed

end DecisionHistory

end AdmissionFabric
