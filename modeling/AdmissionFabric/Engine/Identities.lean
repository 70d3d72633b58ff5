import AdmissionFabric.Engine.JournalEffects
import AdmissionFabric.Engine.LedgerRuns
import AdmissionFabric.Engine.VerdictSpec

/-!
# The identities that the journal names

Decision identities are counted in memory. The journal names the identities of intents, of
decisions, of releases and of revocations; everything that the stores mention is at most as high
as one of these, and the counter is above all of them.
-/

namespace AdmissionFabric

open AdmittedLoadLedger DecisionHistory

variable (records : List JournalRecord)

/-- The decision identities that a record names. -/
def JournalRecord.names : JournalRecord → List AdmissionDecisionId
  | .admissionPrepare record => [record.decision]
  | .admissionCommit record | .admissionRefused record => [record.decision]
  | .ledgerRelease record => [record.decision]
  | .revocation record => [record.decision]
  | .bootEpoch _ | .policyConfig _ | .auditMark _ => []

/-- The identities that records name. -/
def namedIn (records : List JournalRecord) : List AdmissionDecisionId :=
  records.flatMap JournalRecord.names

/-- The identities of the decision frames. -/
def decidedIn (records : List JournalRecord) : List AdmissionDecisionId :=
  (decisionsIn records).map (·.decision)

@[simp] theorem namedIn_append (records' : List JournalRecord) :
    namedIn (records ++ records') = namedIn records ++ namedIn records' := List.flatMap_append

@[simp] theorem namedIn_singleton (record : JournalRecord) : namedIn [record] = record.names := by
  simp [namedIn]

theorem decidedIn_subset_namedIn : decidedIn records ⊆ namedIn records := by
  intro id h
  obtain ⟨decision, hdecision, rfl⟩ := List.mem_map.mp h
  obtain ⟨record, hrecord, hkind⟩ := List.mem_filterMap.mp hdecision
  refine List.mem_flatMap.mpr ⟨record, hrecord, ?_⟩
  cases record <;> cases hkind <;> exact List.mem_singleton.mpr rfl

namespace EngineCore

variable {record : DecisionRecord} {journal : Option Journal} {id : AdmissionDecisionId}
    {decision : AdmissionDecision}

/-- The journal names an identity that is at least as high. -/
def Covers (core : EngineCore) (id : AdmissionDecisionId) : Prop :=
  ∃ named ∈ namedIn core.records, id ≤ named

/-- The journal names an identity that is not below those used and those the stores mention. -/
structure Remembers (used : List AdmissionDecisionId) (core : EngineCore) : Prop where
  durable : core.Durable
  covered : ∀ id ∈ used, core.Covers id
  below : ∀ id ∈ namedIn core.records, id < core.nextDecisionSequence
  cached : ∀ (id : AdmissionDecisionId) decision, core.decisionCache[id]? = some decision →
    core.Covers decision.decision
  recorded : ∀ id record, core.history.find id = some record →
    record.decision = id ∧ core.Covers id
  held : ∀ id, core.ledger.holds id = true → core.Covers id

variable {core : EngineCore} {used : List AdmissionDecisionId}

theorem Remembers.lt_of_covers (h : core.Remembers used) (hid : core.Covers id) :
    id < core.nextDecisionSequence := by
  obtain ⟨named, hnamed, hle⟩ := hid
  exact Nat.lt_of_le_of_lt hle (h.below named hnamed)

/-! ### Changes of the journal -/

theorem Remembers.withJournal (h : core.Remembers used)
    (hdurable : ({ core with journal } : EngineCore).Durable)
    (hcovers : ∀ id ∈ namedIn core.records, ({ core with journal } : EngineCore).Covers id)
    (hbelow : ∀ id ∈ namedIn ({ core with journal } : EngineCore).records,
      id < core.nextDecisionSequence) : ({ core with journal } : EngineCore).Remembers used := by
  have hmono : ∀ id, core.Covers id → ({ core with journal } : EngineCore).Covers id := by
    rintro id ⟨named, hnamed, hle⟩
    obtain ⟨named', hnamed', hle'⟩ := hcovers named hnamed
    exact ⟨named', hnamed', Nat.le_trans hle hle'⟩
  exact ⟨hdurable, fun id hid => hmono id (h.covered id hid), hbelow,
    fun id decision hget => hmono _ (h.cached id decision hget),
    fun id record hfind =>
      ⟨(h.recorded id record hfind).1, hmono id (h.recorded id record hfind).2⟩,
    fun id hid => hmono id (h.held id hid)⟩

theorem Remembers.write (h : core.Remembers used) {record : JournalRecord}
    (hnames : ∀ id ∈ record.names, id < core.nextDecisionSequence) {result : Except Status Unit}
    (hwrite : writeJournal core.journal core.journalReady record = (result, journal)) :
    ({ core with journal } : EngineCore).Remembers used ∧
      (result = .ok () → ∀ id ∈ record.names, ({ core with journal } : EngineCore).Covers id) := by
  obtain ⟨hdurable, hrecords⟩ := records_of_writeJournal h.durable hwrite
  rcases hrecords with hrecords | ⟨⟨status, rfl⟩, hrecords⟩
  · refine ⟨h.withJournal hdurable ?_ ?_, fun _ id hid => ?_⟩
    · intro id hid
      exact ⟨id, by rw [hrecords, namedIn_append]; exact List.mem_append_left _ hid, le_rfl⟩
    · intro id hid
      rw [hrecords, namedIn_append, namedIn_singleton] at hid
      rcases List.mem_append.mp hid with hid | hid
      · exact h.below id hid
      · exact hnames id hid
    · refine ⟨id, ?_, le_rfl⟩
      rw [hrecords, namedIn_append, namedIn_singleton]
      exact List.mem_append_right _ hid
  · refine ⟨h.withJournal hdurable ?_ ?_, fun hok => by cases hok⟩
    · intro id hid
      exact ⟨id, by rw [hrecords]; exact hid, le_rfl⟩
    · intro id hid
      exact h.below id (hrecords ▸ hid)

theorem mem_namedIn_compactedRecords :
    id ∈ namedIn core.compactedRecords ↔
      ∃ record ∈ core.history.inAuditOrder, record.decision = id := by
  have hframes : ∀ record : DecisionRecord,
      id ∈ namedIn (compactedFrames core.ledger record) ↔ record.decision = id := by
    intro record
    unfold compactedFrames
    simp only
    split <;> simp [namedIn, JournalRecord.names, compactedPrepare, eq_comm]
  have hstate : id ∈ namedIn core.compactedState ↔
      id ∈ namedIn (core.history.inAuditOrder.flatMap (compactedFrames core.ledger)) := by
    unfold compactedState
    cases core.policy <;> simp [namedIn, JournalRecord.names]
  rw [compactedRecords, namedIn_append, namedIn_singleton]
  simp only [JournalRecord.names, List.append_nil, hstate]
  rw [namedIn, List.flatMap_assoc, List.mem_flatMap]
  exact exists_congr fun record => and_congr_right fun _ => hframes record

theorem Remembers.compact (h : core.Remembers used)
    (hkept : ∀ id ∈ namedIn core.records,
      ∃ record ∈ core.history.inAuditOrder, id ≤ record.decision) :
    core.compactLocked.2.Remembers used := by
  obtain ⟨hdurable, hrecords⟩ := records_compactLocked h.durable
  rw [compactLocked_snd] at hdurable hrecords ⊢
  refine h.withJournal hdurable ?_ ?_
  · intro id hid
    rcases hrecords with hrecords | hrecords
    · exact ⟨id, by rw [hrecords]; exact hid, le_rfl⟩
    · obtain ⟨record, hrecord, hle⟩ := hkept id hid
      refine ⟨record.decision, ?_, hle⟩
      rw [hrecords]
      exact mem_namedIn_compactedRecords.mpr ⟨record, hrecord, rfl⟩
  · intro id hid
    rcases hrecords with hrecords | hrecords
    · exact h.below id (hrecords ▸ hid)
    · rw [hrecords] at hid
      obtain ⟨record, hrecord, rfl⟩ := mem_namedIn_compactedRecords.mp hid
      obtain ⟨entry, -, hfind⟩ := List.mem_filterMap.mp hrecord
      obtain ⟨hdecision, hcovers⟩ := h.recorded entry.2 record hfind
      exact h.lt_of_covers (hdecision ▸ hcovers)

/-! ### Changes of the stores -/

theorem Remembers.withLedger (h : core.Remembers used) {ledger : AdmittedLoadLedger}
    (hheld : ∀ id, ledger.holds id = true → core.Covers id) :
    ({ core with ledger } : EngineCore).Remembers used :=
  ⟨h.durable, h.covered, h.below, h.cached, h.recorded, hheld⟩

theorem Remembers.consumeIdentity (h : core.Remembers used) :
    core.consumeIdentity.Remembers used :=
  ⟨h.durable, h.covered, fun id hid => Nat.lt_succ_of_lt (h.below id hid), h.cached, h.recorded,
    h.held⟩

theorem Remembers.settle (h : core.Remembers used) (hsame : record.decision = decision.decision)
    (hcovers : core.Covers decision.decision) (attempt : Option AttemptRecord) :
    (core.settle decision record attempt).Remembers used := by
  refine ⟨h.durable, h.covered, h.below, ?_, ?_, h.held⟩
  · intro id cached hget
    rcases getElem?_remember hget with ⟨-, rfl⟩ | hold
    · exact hcovers
    · exact h.cached id cached hold
  · intro id found hfind
    have hold := (trimHistory_retires _ _).find_of_find id found hfind
    rcases find_of_find_insert hold with ⟨rfl, rfl⟩ | hold
    · exact ⟨rfl, hsame ▸ hcovers⟩
    · exact h.recorded id found hold

theorem Remembers.modify (h : core.Remembers used) (d : AdmissionDecisionId)
    {f : DecisionRecord → DecisionRecord} (hf : ∀ record, SameDecision record (f record)) :
    ({ core with history := core.history.modify d f } : EngineCore).Remembers used := by
  refine ⟨h.durable, h.covered, h.below, h.cached, ?_, h.held⟩
  intro id record hfind
  rw [find_modify] at hfind
  split at hfind
  · rename_i heq
    subst heq
    obtain ⟨existing, hexisting, rfl⟩ := Option.map_eq_some_iff.mp hfind
    have hdecision := congrArg DecisionRecord.decision (hf existing)
    obtain ⟨hid, hcovers⟩ := h.recorded d existing hexisting
    exact ⟨hdecision.trans hid, hcovers⟩
  · exact h.recorded id record hfind

theorem ofStores_remembers (used : List AdmissionDecisionId) : OfStores (Remembers used) := by
  intro core core' hstores h
  have hjournal : core'.journal = core.journal := congrArg Stores.journal hstores
  have hready : core'.journalReady = core.journalReady := congrArg Stores.journalReady hstores
  have hcovers : core'.Covers = core.Covers := by
    funext id
    simp only [Covers, records, hjournal]
  refine ⟨?_, hcovers ▸ h.covered, ?_, ?_, ?_, ?_⟩
  · simpa only [Durable, hjournal, hready] using h.durable
  · have hnext : core'.nextDecisionSequence = core.nextDecisionSequence :=
      congrArg Stores.nextDecisionSequence hstores
    simpa only [records, hjournal, hnext] using h.below
  · have hcache : core'.decisionCache = _ := congrArg Stores.decisionCache hstores
    rw [hcache, hcovers]
    exact h.cached
  · have hhistory : core'.history = _ := congrArg Stores.history hstores
    rw [hhistory, hcovers]
    exact h.recorded
  · have hledger : core'.ledger = _ := congrArg Stores.ledger hstores
    rw [hledger, hcovers]
    exact h.held

/-! ### Transactions -/

theorem Remembers.refusal (h : core.Remembers used) (request : AdmissionRequest)
    (claim : ClaimContext) (reason : Refusal) (evidence : Option Evidence) (recordAttempt : Bool) :
    (core.consumeIdentity.finishRefusal (core.refusal request claim reason evidence) request
        recordAttempt).2.Remembers used ∧
      ((core.consumeIdentity.finishRefusal (core.refusal request claim reason evidence) request
          recordAttempt).1 = .ok () →
        (core.consumeIdentity.finishRefusal (core.refusal request claim reason evidence) request
          recordAttempt).2.Covers core.nextDecisionSequence) := by
  have hdecision := core.decision_refusal request claim reason evidence
  generalize core.refusal request claim reason evidence = decision at hdecision ⊢
  generalize hcall : core.consumeIdentity.finishRefusal _ _ _ = outcome
  have hnames : ∀ id ∈ (JournalRecord.admissionRefused
      (core.consumeIdentity.toRecord decision)).names,
      id < core.consumeIdentity.nextDecisionSequence := by
    intro id hid
    obtain rfl : id = decision.decision := List.mem_singleton.mp hid
    exact hdecision ▸ Nat.lt_succ_self _
  cases finishRefusal_effect hcall with
  | unwritten hwrite => exact ⟨(h.consumeIdentity.write hnames hwrite).1, fun hok => by cases hok⟩
  | settled hwrite =>
    obtain ⟨hwritten, hcovers⟩ := h.consumeIdentity.write hnames hwrite
    have hcovered := hcovers rfl decision.decision (List.mem_singleton.mpr rfl)
    refine ⟨hwritten.settle rfl hcovered _, fun _ => ?_⟩
    exact hdecision ▸ hcovered

/-- The record of a grant is listed, whatever was retired when it was settled. -/
theorem mem_inAuditOrder_settle (core : EngineCore) (decision : AdmissionDecision)
    (record : DecisionRecord) (hne : record.decision ≠ 0)
    (hholds : core.ledger.holds record.decision = true) (attempt : Option AttemptRecord) :
    record ∈ (core.settle decision record attempt).history.inAuditOrder := by
  have hret := trimHistory_retires (core.history.insert record) core.ledger
  refine List.mem_filterMap.mpr ⟨(record.audit, record.decision), ?_, ?_⟩
  · refine Std.ExtTreeMap.mem_toList_iff_getElem?_eq_some.mpr ?_
    exact hret.index_of_holds _ _ hholds (auditIndex_insert_self hne)
  · have hfind := hret.find_of_holds _ hholds
    rw [find_insert hne, if_pos rfl] at hfind
    exact hfind

theorem Remembers.compactIfNeeded (h : core.Remembers used)
    (hlisted : record ∈ core.history.inAuditOrder)
    (hlast : core.nextDecisionSequence = record.decision + 1) :
    core.compactIfNeededLocked.2.Remembers used ∧
      core.compactIfNeededLocked.2.Covers record.decision := by
  have hcovers : core.Covers record.decision := by
    obtain ⟨entry, -, hfind⟩ := List.mem_filterMap.mp hlisted
    obtain ⟨hdecision, hcovers⟩ := h.recorded entry.2 record hfind
    exact hdecision ▸ hcovers
  unfold compactIfNeededLocked
  split
  · exact ⟨h, hcovers⟩
  · split
    · refine ⟨h.compact fun id hid => ⟨record, hlisted, ?_⟩, ?_⟩
      · exact Nat.le_of_lt_succ (Nat.lt_of_lt_of_eq (h.below id hid) hlast)
      · rcases (records_compactLocked h.durable).2 with hrecords | hrecords
        · obtain ⟨named, hnamed, hle⟩ := hcovers
          exact ⟨named, by rw [hrecords]; exact hnamed, hle⟩
        · refine ⟨record.decision, ?_, le_rfl⟩
          rw [hrecords]
          exact mem_namedIn_compactedRecords.mpr ⟨record, hlisted, rfl⟩
    · exact ⟨h, hcovers⟩

theorem Remembers.grant (h : core.Remembers used) (request : AdmissionRequest)
    (claim : ClaimContext) (grant : Grant) :
    (core.consumeIdentity.finishAdmission (core.admission request claim grant) request
        (amountsOf grant)).2.Remembers used ∧
      ((core.consumeIdentity.finishAdmission (core.admission request claim grant) request
          (amountsOf grant)).1 = .ok () →
        (core.consumeIdentity.finishAdmission (core.admission request claim grant) request
          (amountsOf grant)).2.Covers core.nextDecisionSequence) := by
  have hdecision := core.decision_admission request claim grant
  generalize core.admission request claim grant = decision at hdecision ⊢
  generalize hcall : core.consumeIdentity.finishAdmission _ _ _ = outcome
  have hlast : decision.decision < core.consumeIdentity.nextDecisionSequence :=
    hdecision ▸ Nat.lt_succ_self _
  have hprepared : ∀ {result journal}, writeJournal core.consumeIdentity.journal
      core.consumeIdentity.journalReady (.admissionPrepare
        (core.consumeIdentity.prepareOf decision (amountsOf grant))) = (result, journal) → _ :=
    fun hwrite => h.consumeIdentity.write
      (fun id hid => by rw [List.mem_singleton.mp hid]; exact hlast) hwrite
  cases finishAdmission_effect hcall with
  | unprepared hprepare => exact ⟨(hprepared hprepare).1, fun hok => by cases hok⟩
  | unreserved hprepare hreserve =>
    obtain ⟨hwritten, hcovers⟩ := hprepared hprepare
    refine ⟨hwritten.withLedger fun id hid => ?_, fun hok => by cases hok⟩
    rcases holds_of_reserve hreserve hid with hold | rfl
    · exact hwritten.held id hold
    · exact hcovers rfl _ (List.mem_singleton.mpr rfl)
  | @uncommitted _ journal journal' ledger hprepare hreserve hcommit =>
    obtain ⟨hwritten, hcovers⟩ := hprepared hprepare
    have hreserved : Remembers used { core.consumeIdentity with journal, ledger } :=
      hwritten.withLedger fun id hid => by
        rcases holds_of_reserve hreserve hid with hold | rfl
        · exact hwritten.held id hold
        · exact hcovers rfl _ (List.mem_singleton.mpr rfl)
    have hcommitted := (hreserved.write
      (fun id hid => by rw [List.mem_singleton.mp hid]; exact hlast) hcommit).1
    refine ⟨?_, fun hok => by cases hok⟩
    cases hrelease : ledger.release decision.decision with
    | error status => exact hcommitted
    | ok released =>
      exact hcommitted.withLedger fun id hid =>
        hcommitted.held id (holds_of_release hrelease hid)
  | @committed journal journal' ledger hprepare hreserve hcommit =>
    obtain ⟨hwritten, hcovers⟩ := hprepared hprepare
    have hreserved : Remembers used { core.consumeIdentity with journal, ledger } :=
      hwritten.withLedger fun id hid => by
        rcases holds_of_reserve hreserve hid with hold | rfl
        · exact hwritten.held id hold
        · exact hcovers rfl _ (List.mem_singleton.mpr rfl)
    obtain ⟨hcommitted, hnamed⟩ := hreserved.write
      (fun id hid => by rw [List.mem_singleton.mp hid]; exact hlast) hcommit
    have hcovered := hnamed rfl decision.decision (List.mem_singleton.mpr rfl)
    have hsame : (core.consumeIdentity.liveRecord decision).decision = decision.decision := rfl
    have hsettled := hcommitted.settle hsame hcovered
      (some (core.consumeIdentity.attemptOf request decision))
    obtain ⟨hcheck, pathTotals, -, hledger⟩ := reserve_eq_ok_iff.mp hreserve
    have hholds : ledger.holds decision.decision = true := by
      rw [hledger, AdmittedLoadLedger.holds, AdmittedLoadLedger.withReservation]
      simp
    have hlisted := mem_inAuditOrder_settle
      { core.consumeIdentity with journal := journal', ledger } decision
      (core.consumeIdentity.liveRecord decision)
      (checkReserve_eq_ok_iff.mp hcheck).1 hholds
      (some (core.consumeIdentity.attemptOf request decision))
    obtain ⟨hcompacted, hfinal⟩ := hsettled.compactIfNeeded hlisted
      (congrArg (· + 1) hdecision.symm)
    exact ⟨hcompacted, fun _ => hdecision ▸ hfinal⟩

theorem transactional_remembers (used : List AdmissionDecisionId) :
    Transactional (Remembers used) where
  refusal _ request claim reason evidence recordAttempt h :=
    (h.refusal request claim reason evidence recordAttempt).1
  grant _ request claim grant _ h := (h.grant request claim grant).1
  release core d reason explanation _ h := by
    generalize hcall : core.releaseDecisionLocked d reason .revoked explanation = outcome
    have hreleased : core.ledger.holds d = true → ∀ {result journal},
        writeJournal core.journal core.journalReady (.ledgerRelease (core.releaseOf d reason)) =
          (result, journal) → Remembers used { core with journal } := by
      intro hheld result journal hwrite
      refine (h.write (fun id hid => ?_) hwrite).1
      rw [List.mem_singleton.mp hid]
      exact h.lt_of_covers (h.held d hheld)
    have hmarked : core.ledger.holds d = true → ∀ {journal journal' ledger result entries},
        Remembers used { core with journal } → core.ledger.release d = .ok (entries, ledger) →
        writeJournal journal core.journalReady
          (.revocation (core.revocationOf d reason .revoked)) = (result, journal') →
        Remembers used { core with journal := journal', ledger } := by
      intro hheld journal journal' ledger result entries hwritten hrelease hmark
      have hledger : Remembers used { core with journal, ledger } :=
        hwritten.withLedger fun id hid =>
          hwritten.held id (holds_of_release hrelease hid)
      refine (hledger.write (fun id hid => ?_) hmark).1
      rw [List.mem_singleton.mp hid]
      exact hwritten.lt_of_covers (hwritten.held d hheld)
    cases releaseDecisionLocked_effect hcall with
    | unheld _ => exact h
    | unwritten hheld hwrite | stuck hheld hwrite _ => exact hreleased hheld hwrite
    | unmarked hheld hwrite hrelease hmark =>
      exact hmarked hheld (hreleased hheld hwrite) hrelease hmark
    | released hheld hwrite hrelease hmark =>
      have hfinal := (hmarked hheld (hreleased hheld hwrite) hrelease hmark).modify d
        (f := fun record => { record with state := .revoked, reason, ledgerLive := false })
        fun record => rfl
      refine ⟨hfinal.durable, hfinal.covered, hfinal.below, ?_, hfinal.recorded, hfinal.held⟩
      intro id decision hget
      refine hfinal.cached id decision ?_
      change (core.decisionCache.erase d)[id]? = some decision at hget
      rw [Std.ExtTreeMap.getElem?_erase] at hget
      split at hget
      · cases hget
      · exact hget
  mark _ d _ hf _ h := h.modify d hf
  note core record hnote h := by
    refine (h.write (fun id hid => ?_) rfl).1
    cases hnote with
    | invalidation hfind =>
      rw [List.mem_singleton.mp hid]
      exact h.lt_of_covers (h.recorded _ _ hfind).2
    | _ => cases hid
  clearFlags core h := h.withLedger fun id hid => h.held id (by
    rwa [AdmittedLoadLedger.clearRevalidationFlags, holds_setFlags] at hid)
  steady core core' hstores _ h := ofStores_remembers used core core' hstores h

/-! ### Answers -/

theorem Remembers.covers_answer (h : core.Remembers used) {request : AdmissionRequest}
    {claim : ClaimContext} (hok : (core.admitLocked request claim).1 = .ok decision) :
    (core.admitLocked request claim).2.Covers decision.decision := by
  have hrefused : ∀ {core : EngineCore} {reason evidence recordAttempt}, core.Remembers used →
      (core.refuse request claim reason evidence recordAttempt).1 = .ok decision →
      (core.refuse request claim reason evidence recordAttempt).2.Covers decision.decision := by
    intro core reason evidence recordAttempt h hok
    obtain ⟨hfinished, rfl⟩ := answer_fst_eq_ok_iff.mp hok
    rw [refuse, answer_snd, decision_refusal]
    exact (h.refusal request claim reason evidence recordAttempt).2 hfinished
  unfold admitLocked at hok ⊢
  cases hverdict : core.verdict request claim with
  | refuse reason evidence recordAttempt =>
    simp only [hverdict] at hok ⊢
    exact hrefused h hok
  | retired reason =>
    simp only [hverdict] at hok ⊢
    exact hrefused (ofStores_remembers used core core.countReplay rfl h) hok
  | replay replayed =>
    simp only [hverdict] at hok ⊢
    obtain rfl := Except.ok.inj hok
    rcases replay_of_verdict hverdict with ⟨id, cached, hget, rfl⟩ | ⟨id, record, hfind, rfl⟩
    · exact h.cached id cached hget
    · obtain ⟨rfl, hcovers⟩ := h.recorded id record hfind
      exact hcovers
  | grant grant =>
    simp only [hverdict] at hok ⊢
    obtain ⟨hfinished, rfl⟩ := answer_fst_eq_ok_iff.mp hok
    rw [answer_snd, decision_admission]
    exact (h.grant request claim grant).2 hfinished

end EngineCore

/-! ### Recovery -/

namespace EngineCore

theorem remembers_boot (used : List AdmissionDecisionId) {config : EngineConfig}
    {journal : Journal} (hstatus : (boot config journal).1.status = none)
    (hdecided : ∀ id ∈ used ++ namedIn journal.records,
      ∃ decided ∈ decidedIn journal.records, id ≤ decided) :
    (boot config journal).2.Remembers (used ++ namedIn (boot config journal).2.records) := by
  obtain ⟨opened, state, ledger, epoch, journal', -, hreplay, hrestore, -, -, heq⟩ :=
    boot_eq_recoveredCore hstatus
  obtain ⟨hdurable, hrecords⟩ := records_boot hstatus
  have hnamed : namedIn (boot config journal).2.records = namedIn journal.records := by
    rw [hrecords, namedIn_append, namedIn_singleton]
    exact List.append_nil _
  have hcovers : ∀ id ∈ used ++ namedIn journal.records, (boot config journal).2.Covers id := by
    intro id hid
    obtain ⟨decided, hmem, hle⟩ := hdecided id hid
    exact ⟨decided, hnamed ▸ decidedIn_subset_namedIn _ hmem, hle⟩
  have hsourced := ReplayState.sourced_of_replayFrames hreplay
  refine ⟨hdurable, fun id hid => hcovers id (hnamed ▸ hid), ?_, ?_, ?_, ?_⟩
  · intro id hid
    obtain ⟨decided, hmem, hle⟩ := hdecided id (List.mem_append_right _ (hnamed ▸ hid))
    obtain ⟨decision, hdecision, rfl⟩ := List.mem_map.mp hmem
    have hmax := ReplayState.decision_le_of_replayFrames hreplay hdecision
    rw [heq]
    exact Nat.lt_succ_of_le (Nat.le_trans hle hmax)
  · intro id decision hget
    rw [heq] at hget
    simp [recoveredCore, fresh] at hget
  · intro id record hfind
    rw [heq] at hfind
    obtain ⟨rfl, original, hmem, hrestores⟩ := hsourced.recorded id record
      ((trimHistory_retires _ _).find_of_find id record hfind)
    refine ⟨rfl, hcovers _ (List.mem_append_right _ (decidedIn_subset_namedIn _ ?_))⟩
    exact List.mem_map.mpr ⟨original, hmem, hrestores.decision.symm⟩
  · intro id hid
    rw [heq] at hid
    change (ledger.setFlags true).holds id = true at hid
    rw [holds_setFlags] at hid
    rcases holds_of_restoreLedger hrestore hid with hold | ⟨prepare, hprepare, rfl⟩
    · simp [AdmittedLoadLedger.holds] at hold
    · obtain ⟨entry, hentry, rfl⟩ := List.mem_map.mp (List.mem_of_mem_filter hprepare)
      obtain ⟨-, hmem, -⟩ := hsourced.committed entry.1 entry.2
        (Std.ExtTreeMap.mem_toList_iff_getElem?_eq_some.mp hentry)
      refine hcovers _ (List.mem_append_right _ (List.mem_flatMap.mpr ⟨_, hmem, ?_⟩))
      exact List.mem_singleton.mpr rfl

end EngineCore

end AdmissionFabric
