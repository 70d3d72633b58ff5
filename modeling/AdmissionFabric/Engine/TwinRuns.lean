import AdmissionFabric.Engine.Consistency
import AdmissionFabric.Engine.Locality
import AdmissionFabric.Library.Renaming

/-!
# Two engines, one refusal apart

Two engines that received the same calls, except that one of them also refused a submission, name
their decisions differently: every decision after the refusal has the next identity and the next
audit sequence in the second engine. Otherwise they hold the same, and the calls made from there
on do the same to both, as long as none of them asks for an attempt that the refusal is recorded
under and nothing is retired or compacted.
-/

namespace AdmissionFabric

open OrderedMap
open Std (ExtTreeMap)

variable {record : DecisionRecord} {record' : JournalRecord}

/-- The refusal that only one of two engines made, and the identities of its attempt. -/
structure Extra where
  decision : AdmissionDecisionId
  audit : AuditSequence
  demand : DemandId
  attempt : AttemptId
  request : AdmissionRequestId
  decision_pos : 0 < decision

namespace Extra

variable {d : AdmissionDecisionId} (extra : Extra)

/-- The identity, in the engine that refused, of a decision of the other. -/
def rename (d : AdmissionDecisionId) : AdmissionDecisionId := skip extra.decision d

/-- An audit sequence past the extra one. -/
def renumber (a : AuditSequence) : AuditSequence := skip extra.audit a

/-- An entry under the new identity. -/
def renameEntry (entry : LedgerEntry) : LedgerEntry :=
  { entry with decision := extra.rename entry.decision }

/-- A record under the new identity. -/
def renameRecord (record : DecisionRecord) : DecisionRecord :=
  { record with
    decision := extra.rename record.decision
    audit := extra.renumber record.audit }

/-- A decision under the new identity. -/
def renameDecision (decision : AdmissionDecision) : AdmissionDecision :=
  { decision with
    decision := extra.rename decision.decision
    audit := extra.renumber decision.audit }

/-- An attempt under the new identity. -/
def renameAttempt (attempt : AttemptRecord) : AttemptRecord :=
  { attempt with decision := extra.rename attempt.decision }

theorem rename_injective : Function.Injective extra.rename := skip_injective

theorem renumber_injective : Function.Injective extra.renumber := skip_injective

@[simp] theorem rename_inj {d' : AdmissionDecisionId} :
    extra.rename d = extra.rename d' ↔ d = d' := extra.rename_injective.eq_iff

@[simp] theorem rename_eq_zero : extra.rename d = 0 ↔ d = 0 :=
  skip_eq_zero extra.decision_pos

theorem rename_ne (d : AdmissionDecisionId) : extra.rename d ≠ extra.decision := skip_ne d

theorem renumber_ne (a : AuditSequence) : extra.renumber a ≠ extra.audit := skip_ne a

/-! What was issued before the refusal keeps its name. -/

variable {extra : Extra}

theorem renameEntry_of_lt {entry : LedgerEntry} (h : entry.decision < extra.decision) :
    extra.renameEntry entry = entry := by
  rw [renameEntry, rename, skip_of_lt h]

theorem renameRecord_of_lt (h : record.decision < extra.decision)
    (haudit : record.audit < extra.audit) : extra.renameRecord record = record := by
  rw [renameRecord, rename, renumber, skip_of_lt h, skip_of_lt haudit]

theorem renameDecision_of_lt {decision : AdmissionDecision}
    (h : decision.decision < extra.decision) (haudit : decision.audit < extra.audit) :
    extra.renameDecision decision = decision := by
  rw [renameDecision, rename, renumber, skip_of_lt h, skip_of_lt haudit]

theorem renameAttempt_of_lt {attempt : AttemptRecord} (h : attempt.decision < extra.decision) :
    extra.renameAttempt attempt = attempt := by
  rw [renameAttempt, rename, skip_of_lt h]

end Extra

variable {extra : Extra}

/-- Two results that agree: both fail with one status, or both succeed with related values. -/
inductive Agree {α β : Type} (R : α → β → Prop) : Except Status α → Except Status β → Prop
  | ok {a : α} {b : β} (h : R a b) : Agree R (.ok a) (.ok b)
  | error (status : Status) : Agree R (.error status) (.error status)

theorem Agree.imp {α β : Type} {R S : α → β → Prop} {result : Except Status α}
    {result' : Except Status β} (h : Agree R result result') (himp : ∀ a b, R a b → S a b) :
    Agree S result result' := by
  cases h with
  | ok hvalue => exact .ok (himp _ _ hvalue)
  | error status => exact .error status

theorem Agree.of_eq {result result' : Except Status Unit} (h : result' = result) :
    Agree (fun _ _ => True) result result' := by
  subst h
  cases result' with
  | ok _ => exact .ok trivial
  | error status => exact .error status

/-! ### Ledgers -/

namespace AdmittedLoadLedger

/-- Two ledgers with the same load under other names. -/
structure Twin (extra : Extra) (ledger ledger' : AdmittedLoadLedger) : Prop where
  totals : ledger'.totals = ledger.totals
  pathTotals : ledger'.pathTotals = ledger.pathTotals
  entryCount : ledger'.entryCount = ledger.entryCount
  byDecision : Carries extra.rename (List.map extra.renameEntry) ledger.byDecision
    ledger'.byDecision
  unheld : ledger'.byDecision[extra.decision]? = none

namespace Twin

variable {ledger ledger' : AdmittedLoadLedger} (h : ledger.Twin extra ledger')

include h

theorem holds (d : AdmissionDecisionId) : ledger'.holds (extra.rename d) = ledger.holds d := by
  rw [AdmittedLoadLedger.holds, h.byDecision d, Option.isSome_map]
  rfl

theorem heldEntries : ledger'.heldEntries = ledger.heldEntries.map extra.renameEntry := by
  have hlist : ledger'.byDecision.toList =
      ledger.byDecision.toList.map (Prod.map extra.rename (List.map extra.renameEntry)) := by
    refine h.byDecision.toList compare_skip fun d hd => exists_skip_iff.mpr ?_
    rintro rfl
    rw [ExtTreeMap.mem_iff_isSome_getElem?, h.unheld] at hd
    cases hd
  rw [AdmittedLoadLedger.heldEntries, hlist, List.flatMap_map, AdmittedLoadLedger.heldEntries,
    List.map_flatMap]
  rfl

theorem entries : ledger'.entries = ledger.entries.map extra.renameEntry := by
  rw [AdmittedLoadLedger.entries, h.heldEntries, AdmittedLoadLedger.entries]
  refine (List.map_insertionSort _ _ _ _ fun a _ b _ => ?_).symm
  have hle : extra.rename a.decision ≤ extra.rename b.decision ↔ a.decision ≤ b.decision := by
    rw [← Nat.not_lt, ← Nat.not_lt]
    exact not_congr skip_lt_skip
  exact or_congr Iff.rfl (and_congr Iff.rfl hle.symm)

theorem entriesOf (d : AdmissionDecisionId) :
    ledger'.entriesOf (extra.rename d) = (ledger.entriesOf d).map extra.renameEntry := by
  rw [AdmittedLoadLedger.entriesOf, h.entries, AdmittedLoadLedger.entriesOf, List.filter_map]
  refine congrArg _ (List.filter_congr fun entry _ => ?_)
  exact decide_eq_decide.mpr extra.rename_inj

theorem admitted (r : ResourceId) : ledger'.admitted r = ledger.admitted r := by
  rw [AdmittedLoadLedger.admitted, AdmittedLoadLedger.admitted, h.totals]

theorem admittedOnPath (p : PathId) : ledger'.admittedOnPath p = ledger.admittedOnPath p := by
  rw [AdmittedLoadLedger.admittedOnPath, AdmittedLoadLedger.admittedOnPath, h.pathTotals]

theorem without (d : AdmissionDecisionId) (es : List LedgerEntry) :
    (ledger.without d es).Twin extra
      (ledger'.without (extra.rename d) (es.map extra.renameEntry)) where
  totals := by
    simp only [AdmittedLoadLedger.without, h.totals, List.map_map]
    rfl
  pathTotals := by
    simp only [AdmittedLoadLedger.without, h.pathTotals, subPath, List.head?_map, List.map_map]
    cases es.head? with
    | none | some front => rfl
  entryCount := by
    simp only [AdmittedLoadLedger.without, h.entryCount, List.length_map]
  byDecision := h.byDecision.erase extra.rename_injective d
  unheld := by
    simp only [AdmittedLoadLedger.without, ExtTreeMap.getElem?_erase, h.unheld, ite_self]

omit h in
theorem checkTotals_map (totals : ExtTreeMap ResourceId Rate) (es : List LedgerEntry) :
    checkTotals totals (es.map extra.renameEntry) = checkTotals totals es := by
  induction es with
  | nil => rfl
  | cons entry rest ih =>
    rw [List.map_cons, checkTotals, ih]
    rfl

theorem release (d : AdmissionDecisionId) :
    Agree (fun a b => b.1 = a.1.map extra.renameEntry ∧ a.2.Twin extra b.2)
      (ledger.release d) (ledger'.release (extra.rename d)) := by
  unfold AdmittedLoadLedger.release
  by_cases hd : d = 0
  · rw [if_pos hd, if_pos (extra.rename_eq_zero.mpr hd)]
    exact .error _
  · rw [if_neg hd, if_neg (mt extra.rename_eq_zero.mp hd), remove, remove, h.byDecision d]
    cases ledger.byDecision[d]? with
    | none => exact .error _
    | some es =>
      simp only [Option.map_some, h.totals, checkTotals_map]
      cases checkTotals ledger.totals es with
      | error status => exact .error _
      | ok _ => exact .ok ⟨rfl, h.without d es⟩

theorem checkReserve (d : AdmissionDecisionId) (amounts : List (ResourceId × Rate)) :
    ledger'.checkReserve (extra.rename d) amounts = ledger.checkReserve d amounts := by
  simp only [AdmittedLoadLedger.checkReserve, h.holds, h.entryCount, h.totals,
    extra.rename_eq_zero]

theorem reserve (d : AdmissionDecisionId) (demand : DemandId) (epoch : FabricEpoch)
    (generation : Generation) (path : PathId) (amounts : List (ResourceId × Rate)) :
    (ledger'.reserve (extra.rename d) demand epoch generation path amounts).1 =
        (ledger.reserve d demand epoch generation path amounts).1 ∧
      (ledger.reserve d demand epoch generation path amounts).2.Twin extra
        (ledger'.reserve (extra.rename d) demand epoch generation path amounts).2 := by
  have hpath : ledger'.addPath path amounts = ledger.addPath path amounts := by
    rw [addPath, addPath, h.pathTotals]
  unfold AdmittedLoadLedger.reserve
  rw [h.checkReserve]
  cases ledger.checkReserve d amounts with
  | error status => exact ⟨rfl, h⟩
  | ok _ =>
    simp only [hpath]
    cases ledger.addPath path amounts with
    | none => exact ⟨rfl, { h with totals := by rw [h.totals] }⟩
    | some pathTotals =>
      refine ⟨rfl, by rw [h.totals], rfl, by rw [h.entryCount], ?_, ?_⟩
      · have hcarries := h.byDecision.insert extra.rename_injective d
          (newEntries d demand epoch generation path amounts)
        rwa [newEntries, List.map_map] at hcarries
      · simp [ExtTreeMap.getElem?_insert, extra.rename_ne, h.unheld]

theorem setFlags (flag : Bool) : (ledger.setFlags flag).Twin extra (ledger'.setFlags flag) where
  totals := h.totals
  pathTotals := h.pathTotals
  entryCount := h.entryCount
  byDecision := by
    refine h.byDecision.map fun d es => ?_
    rw [List.map_map, List.map_map]
    rfl
  unheld := by
    rw [AdmittedLoadLedger.setFlags, ExtTreeMap.getElem?_map, h.unheld]
    rfl

end Twin

end AdmittedLoadLedger

/-! ### Histories -/

namespace DecisionHistory

/-- Two histories with the same records under other names. -/
structure Twin (extra : Extra) (history history' : DecisionHistory) : Prop where
  records : Carries extra.rename extra.renameRecord history.records history'.records
  auditIndex : Carries extra.renumber extra.rename history.auditIndex history'.auditIndex
  index_extra : ∀ d, history'.auditIndex[extra.audit]? = some d → d = extra.decision
  record_extra : ∀ record, history'.records[extra.decision]? = some record →
    record.outcome.isAdmitting = false

namespace Twin

variable {history history' : DecisionHistory} (h : history.Twin extra history')

include h

theorem find (d : AdmissionDecisionId) :
    history'.find (extra.rename d) = (history.find d).map extra.renameRecord := h.records d

theorem insert (record : DecisionRecord) :
    (history.insert record).Twin extra (history'.insert (extra.renameRecord record)) := by
  have hrecords := h.records.insert extra.rename_injective record.decision record
  have hkeep : ∀ v, (history'.records.insert (extra.rename record.decision) v)[extra.decision]? =
      history'.records[extra.decision]? := by
    intro v
    simp [ExtTreeMap.getElem?_insert, extra.rename_ne]
  have hlist : ∀ index : ExtTreeMap AuditSequence AdmissionDecisionId,
      (index.insert (extra.renumber record.audit) (extra.rename record.decision))[extra.audit]? =
        index[extra.audit]? := by
    intro index
    simp [ExtTreeMap.getElem?_insert, extra.renumber_ne]
  have hzero : (extra.renameRecord record).decision = 0 ↔ record.decision = 0 :=
    extra.rename_eq_zero
  unfold DecisionHistory.insert
  by_cases hd : record.decision = 0
  · rw [if_pos hd, if_pos (hzero.mpr hd)]
    exact h
  · have hget : history'.records[(extra.renameRecord record).decision]? =
        (history.records[record.decision]?).map extra.renameRecord := h.records record.decision
    rw [if_neg hd, if_neg (mt hzero.mp hd), hget]
    cases history.records[record.decision]? with
    | none =>
      refine ⟨hrecords, h.auditIndex.insert extra.renumber_injective _ _, fun d hindex => ?_,
        fun r hr => ?_⟩
      · exact h.index_extra d ((hlist _).symm.trans hindex)
      · exact h.record_extra r ((hkeep _).symm.trans hr)
    | some existing =>
      refine ⟨hrecords, (h.auditIndex.erase extra.renumber_injective _).insert
        extra.renumber_injective _ _, fun d hindex => ?_, fun r hr => ?_⟩
      · have herased := (hlist _).symm.trans hindex
        rw [ExtTreeMap.getElem?_erase] at herased
        split at herased
        · cases herased
        · exact h.index_extra d herased
      · exact h.record_extra r ((hkeep _).symm.trans hr)

theorem insert_extra (hdecision : record.decision = extra.decision)
    (haudit : record.audit = extra.audit) (hrefuses : record.outcome.isAdmitting = false)
    (hfresh : history'.records[extra.decision]? = none) :
    history.Twin extra (history'.insert record) := by
  have hne : record.decision ≠ 0 := hdecision ▸ extra.decision_pos.ne'
  rw [DecisionHistory.insert, if_neg hne, hdecision, hfresh]
  refine ⟨h.records.add extra.rename_ne record, ?_, fun d hindex => ?_, fun found hfound => ?_⟩
  · exact h.auditIndex.add (haudit ▸ extra.renumber_ne) extra.decision
  · rw [haudit] at hindex
    exact (Option.some.inj ((ExtTreeMap.getElem?_insert_self).symm.trans hindex)).symm
  · rw [← Option.some.inj ((ExtTreeMap.getElem?_insert_self).symm.trans hfound)]
    exact hrefuses

theorem modify (d : AdmissionDecisionId) {f : DecisionRecord → DecisionRecord}
    (hf : ∀ record, f (extra.renameRecord record) = extra.renameRecord (f record)) :
    (history.modify d f).Twin extra (history'.modify (extra.rename d) f) := by
  unfold DecisionHistory.modify
  rw [h.find d]
  cases hfind : history.find d with
  | none => exact h
  | some existing =>
    have hfind' := (h.find d).trans (congrArg _ hfind)
    rw [DecisionHistory.find] at hfind hfind'
    simp only [Option.map_some, update, hfind, hfind', hf]
    refine ⟨h.records.insert extra.rename_injective d _, h.auditIndex, h.index_extra,
      fun r hr => h.record_extra r ?_⟩
    simpa [ExtTreeMap.getElem?_insert, extra.rename_ne] using hr

theorem noteRelease : history.noteRelease.Twin extra history'.noteRelease :=
  ⟨h.records, h.auditIndex, h.index_extra, h.record_extra⟩

theorem admitting_inAuditOrder :
    history'.inAuditOrder.filter (·.outcome.isAdmitting) =
      (history.inAuditOrder.filter (·.outcome.isAdmitting)).map extra.renameRecord := by
  have hlist := h.auditIndex.filter_toList compare_skip
    (fun a => (bne_iff_ne (a := a) (b := extra.audit)).trans exists_skip_iff.symm)
  have hskip : ∀ bindings : List (AuditSequence × AdmissionDecisionId),
      (∀ b ∈ bindings, b.1 = extra.audit → b.2 = extra.decision) →
      (bindings.filterMap fun b => history'.records[b.2]?).filter (·.outcome.isAdmitting) =
        ((bindings.filter (·.1 != extra.audit)).filterMap fun b => history'.records[b.2]?).filter
          (·.outcome.isAdmitting) := by
    intro bindings hbindings
    induction bindings with
    | nil => rfl
    | cons b rest ih =>
      obtain ⟨hb, hrest⟩ := List.forall_mem_cons.mp hbindings
      by_cases ha : b.1 = extra.audit
      · rw [List.filter_cons_of_neg (by simpa using ha), ← ih hrest, List.filterMap_cons, hb ha]
        cases hget : history'.records[extra.decision]? with
        | none => rfl
        | some record => simp [h.record_extra record hget]
      · rw [List.filter_cons_of_pos (by simpa using ha), List.filterMap_cons, List.filterMap_cons]
        cases history'.records[b.2]? with
        | none => exact ih hrest
        | some record => simp only [List.filter_cons, ih hrest]
  unfold DecisionHistory.inAuditOrder
  rw [hskip, hlist]
  · have hget : (fun b : AuditSequence × AdmissionDecisionId => history'.records[b.2]?) ∘
        Prod.map extra.renumber extra.rename =
          fun b => (history.records[b.2]?).map extra.renameRecord :=
      funext fun b => h.records b.2
    rw [List.filterMap_map, hget, ← List.map_filterMap, List.filter_map]
    rfl
  · rintro ⟨a, d⟩ hb rfl
    exact h.index_extra d (ExtTreeMap.mem_toList_iff_getElem?_eq_some.mp hb)

end Twin

end DecisionHistory

/-! ### Journals -/

/-- Two journals to which the disk does the same; their frames may differ. -/
inductive Journal.Twin : Option Journal → Option Journal → Prop
  | none : Journal.Twin none none
  | some {journal journal' : Journal} (isOpen : journal'.isOpen = journal.isOpen)
      (options : journal'.options = journal.options) (disk : journal'.disk = journal.disk) :
      Journal.Twin (some journal) (some journal')

theorem Journal.Twin.append {journal journal' : Journal}
    (h : Journal.Twin (Option.some journal) (Option.some journal')) {record : JournalRecord}
    (hlength : record'.payload.length = record.payload.length) :
    (journal'.append record').1 = (journal.append record).1 ∧
      Journal.Twin (Option.some (journal.append record).2)
        (Option.some (journal'.append record').2) := by
  obtain _ | ⟨hopen, hoptions, hdisk⟩ := h
  have houtcome : journal'.nextOutcome = journal.nextOutcome := by
    rw [nextOutcome, nextOutcome, hdisk]
  have hconsumed : journal'.consume.disk = journal.consume.disk := by
    rw [consume, consume, hdisk]
  unfold Journal.append
  rw [hopen, hoptions, hlength, houtcome]
  split
  · exact ⟨rfl, .some hopen hoptions hdisk⟩
  · split
    · exact ⟨rfl, .some hopen hoptions hdisk⟩
    · cases journal.nextOutcome with
      | synced => exact ⟨rfl, .some hopen hoptions hconsumed⟩
      | unsynced =>
        dsimp only
        split
        · exact ⟨rfl, .some hopen hoptions hconsumed⟩
        · exact ⟨rfl, .some hopen hoptions hconsumed⟩
      | lost | severed => exact ⟨rfl, .some hopen hoptions hconsumed⟩

/-! ### Engines -/

/-- Two calls that agree and leave related engines behind. -/
structure Outcome.Twin {α β : Type} (R : α → β → Prop) (P : EngineCore → EngineCore → Prop)
    (outcome : Outcome α) (outcome' : Outcome β) : Prop where
  result : Agree R outcome.1 outcome'.1
  core : P outcome.2 outcome'.2

namespace Outcome.Twin

variable {α β γ δ : Type} {R : α → β → Prop} {S : γ → δ → Prop}
  {P Q : EngineCore → EngineCore → Prop} {core core' : EngineCore}

theorem ok {a : α} {b : β} (h : R a b) (hcore : P core core') :
    Twin R P (.ok a, core) (.ok b, core') := ⟨.ok h, hcore⟩

theorem error (status : Status) (hcore : P core core') :
    Twin R P (.error status, core) (.error status, core') := ⟨.error status, hcore⟩

theorem andThen {outcome : Outcome α} {outcome' : Outcome β} (h : Twin R P outcome outcome')
    (hcore : ∀ core core', P core core' → Q core core') {f : α → EngineCore → Outcome γ}
    {f' : β → EngineCore → Outcome δ}
    (hf : ∀ a b core core', R a b → P core core' → Twin S Q (f a core) (f' b core')) :
    Twin S Q (outcome.andThen f) (outcome'.andThen f') := by
  obtain ⟨result, core⟩ := outcome
  obtain ⟨result', core'⟩ := outcome'
  obtain ⟨hresult, htwin⟩ := h
  cases hresult with
  | ok hvalue => exact hf _ _ core core' hvalue htwin
  | error status => exact error status (hcore core core' htwin)

end Outcome.Twin

namespace EngineCore

/-- Two engines that are one refusal apart. -/
structure Twin (extra : Extra) (core core' : EngineCore) : Prop where
  authority : core'.toAuthority = core.toAuthority
  config : core'.config = core.config
  sessions : core'.sessions = core.sessions
  nextSessionNonce : core'.nextSessionNonce = core.nextSessionNonce
  ledger : core.ledger.Twin extra core'.ledger
  history : core.history.Twin extra core'.history
  cache : Carries extra.rename extra.renameDecision core.decisionCache core'.decisionCache
  attempts : ∀ key ≠ (extra.demand, extra.attempt), core'.attempts.attempts[key]? =
    (core.attempts.attempts[key]?).map extra.renameAttempt
  requests : ∀ id ≠ extra.request,
    core'.attempts.requestFingerprints[id]? = core.attempts.requestFingerprints[id]?
  next : core'.nextDecisionSequence = core.nextDecisionSequence + 1
  next_le : extra.decision ≤ core.nextDecisionSequence
  audit : core'.audit = core.audit + 1
  audit_le : extra.audit ≤ core.audit
  journal : Journal.Twin core.journal core'.journal
  journalReady : core'.journalReady = core.journalReady

/-- Room for one more decision in every bounded store. -/
structure Unfilled (core : EngineCore) : Prop where
  history : core.history.records.size < core.history.capacity
  cache : core.decisionCache.size < Limits.maxDecisionRecords
  attempts : core.attempts.attempts.size < core.attempts.capacity

/-- Room for one more decision, and for some frames before a compaction. -/
structure HasSpace (frames : Nat) (core : EngineCore) : Prop extends core.Unfilled where
  frames : core.journalReady = true → ∀ journal ∈ core.journal,
    journal.frameCount + frames < journal.options.compactAtRecords

instance (frames : Nat) (core : EngineCore) : Decidable (core.HasSpace frames) :=
  decidable_of_iff
    (core.history.records.size < core.history.capacity ∧
      core.decisionCache.size < Limits.maxDecisionRecords ∧
      core.attempts.attempts.size < core.attempts.capacity ∧
      (core.journalReady = true → ∀ journal ∈ core.journal,
        journal.frameCount + frames < journal.options.compactAtRecords))
    ⟨fun ⟨hhistory, hcache, hattempts, hframes⟩ => ⟨⟨hhistory, hcache, hattempts⟩, hframes⟩,
      fun h => ⟨h.history, h.cache, h.attempts, h.frames⟩⟩

/-- Twins that both have room. -/
structure SpaciousTwin (extra : Extra) (frames : Nat) (core core' : EngineCore) : Prop where
  twin : core.Twin extra core'
  space : core.HasSpace frames
  space' : core'.HasSpace frames

variable {core core' : EngineCore}

theorem frameCount_append_le (journal : Journal) (record : JournalRecord) :
    (journal.append record).2.frameCount ≤ journal.frameCount + 1 := by
  unfold Journal.append
  split
  · exact Nat.le_succ _
  · split
    · exact Nat.le_succ _
    · cases journal.nextOutcome with
      | synced => exact le_rfl
      | unsynced =>
        dsimp only
        split
        · exact Nat.le_succ _
        · exact le_rfl
      | lost | severed => exact Nat.le_succ _

theorem HasSpace.writeRecord {frames : Nat} (h : core.HasSpace (frames + 1))
    (record : JournalRecord) : (core.writeRecord record).2.HasSpace frames where
  history := h.history
  cache := h.cache
  attempts := h.attempts
  frames hready journal hjournal := by
    have hspace := h.frames hready
    have hwritten : journal ∈ (writeJournal core.journal core.journalReady record).2 := hjournal
    rw [show core.journalReady = true from hready] at hwritten
    cases hold : core.journal with
    | none =>
      rw [hold, writeJournal] at hwritten
      cases hwritten
    | some old =>
      rw [hold, writeJournal, if_pos rfl] at hwritten
      obtain rfl := Option.mem_some.mp hwritten
      have hcount := frameCount_append_le old record
      have hbound := hspace old hold
      rw [Journal.options_append]
      omega

namespace Twin

variable (h : core.Twin extra core')

include h

theorem rename_next : extra.rename core.nextDecisionSequence = core'.nextDecisionSequence :=
  (skip_of_le h.next_le).trans h.next.symm

theorem renumber_audit : extra.renumber core.audit = core'.audit :=
  (skip_of_le h.audit_le).trans h.audit.symm

theorem consumeIdentity : core.consumeIdentity.Twin extra core'.consumeIdentity :=
  { h with
    next := congrArg (· + 1) h.next
    next_le := Nat.le_succ_of_le h.next_le
    audit := congrArg (· + 1) h.audit
    audit_le := Nat.le_succ_of_le h.audit_le }

theorem writeRecord {record : JournalRecord}
    (hlength : record'.payload.length = record.payload.length) :
    Outcome.Twin (fun _ _ => True) (Twin extra) (core.writeRecord record)
      (core'.writeRecord record') := by
  have hwrite : (writeJournal core'.journal core'.journalReady record').1 =
        (writeJournal core.journal core.journalReady record).1 ∧
      Journal.Twin (writeJournal core.journal core.journalReady record).2
        (writeJournal core'.journal core'.journalReady record').2 := by
    have hjournal := h.journal
    rw [h.journalReady]
    generalize core.journal = journal at hjournal ⊢
    generalize core'.journal = journal' at hjournal ⊢
    cases hjournal with
    | none => exact ⟨rfl, .none⟩
    | some hopen hoptions hdisk =>
      have htwin := Journal.Twin.some hopen hoptions hdisk
      cases core.journalReady with
      | false => exact ⟨rfl, htwin⟩
      | true => exact htwin.append hlength
  exact ⟨.of_eq hwrite.1, { h with journal := hwrite.2 }⟩

end Twin

end EngineCore

end AdmissionFabric
