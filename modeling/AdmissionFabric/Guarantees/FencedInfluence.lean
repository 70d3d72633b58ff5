import AdmissionFabric.Engine.Named
import AdmissionFabric.Engine.TwinCalls
import AdmissionFabric.Guarantees.AttemptSurvival
import AdmissionFabric.Guarantees.AuditOrder
import AdmissionFabric.Guarantees.DeadReplays
import Mathlib.Data.List.Induction

/-!
# What a fenced submission changes for others

A claim that the fence refuses is answered with a refusal, and the refusal is recorded like any
other decision: it takes an identity and an audit sequence, it is written to the history and the
cache, and its attempt is registered before any comparison with what the attempt was registered
as before. Whoever holds a live claim and asks for the same attempt afterwards is answered with the
refusal, or with a conflict.

Two engines are compared, one that received the submission and one that did not. As long as later
requests ask for other attempts under other request identities, both engines have room for every
decision, and no journal is compacted, all later calls are answered alike and the load is the same.
-/

namespace AdmissionFabric

open OrderedMap TransitionSystem AttemptRegistry
open Std (ExtTreeMap)

namespace EngineCore

variable {refusal : Refusal} {core core' : EngineCore} {request : AdmissionRequest}
    {claim : ClaimContext}

/-! ### Identities that have been issued -/

/-- No store names a decision that has not been issued. -/
structure Issued (core : EngineCore) : Prop extends core.Consistent, core.Named

theorem decision_of_attemptsIn {capacity : Nat} {records : List JournalRecord}
    {key : DemandId × AttemptId} {attempt : AttemptRecord}
    (h : (attemptsIn capacity records).attempts[key]? = some attempt) :
    ∃ record ∈ decisionsIn records, attempt.decision = record.decision := by
  induction records using List.reverseRecOn with
  | nil => simp [attemptsIn] at h
  | append_singleton done record ih =>
    rw [decisionsIn_append]
    rw [attemptsIn_append_singleton, attemptStep] at h
    have hearlier : (attemptsIn capacity done).attempts[key]? = some attempt →
        ∃ r ∈ decisionsIn done ++ decisionsIn [record], attempt.decision = r.decision := by
      intro hget
      obtain ⟨r, hr, heq⟩ := ih hget
      exact ⟨r, List.mem_append_left _ hr, heq⟩
    cases hdecision : record.decision? with
    | none =>
      rw [hdecision] at h
      exact hearlier h
    | some decision =>
      simp only [hdecision] at h
      split at h
      · rcases of_getElem?_attempts_record h with rfl | hget
        · exact ⟨decision, List.mem_append_right _ (by simp [decisionsIn, hdecision]), rfl⟩
        · exact hearlier hget
      · exact hearlier h

theorem named_boot {config : EngineConfig} {journal : Journal}
    (hstatus : (boot config journal).1.status = none) : (boot config journal).2.Named := by
  refine ⟨fun d decision hget => ?_, fun key attempt hget => ?_⟩
  · simp [decisionCache_boot] at hget
  · rw [attempts_boot hstatus] at hget
    obtain ⟨record, hrecord, hdecision⟩ := decision_of_attemptsIn hget
    obtain ⟨opened, state, ledger, epoch, journal', -, hreplay, -, -, -, heq⟩ :=
      boot_eq_recoveredCore hstatus
    rw [heq, hdecision]
    exact Nat.lt_succ_of_le (ReplayState.decision_le_of_replayFrames hreplay hrecord)

theorem named_boot_new (config : EngineConfig) (options : JournalOptions)
    (disk : List DiskOutcome) : (boot config { options, disk }).2.Named := by
  refine Named.of_empty (decisionCache_boot config _) ?_
  have heffect := boot_effect config { options, disk }
  generalize (boot config { options, disk }).2 = core,
    (boot config { options, disk }).1.status = status at heffect ⊢
  cases heffect with
  | unopened _ | unread _ => rfl
  | read _ hrecover =>
    cases hrecover with
    | refused hreplay => simp [ReplayState.replayFrames] at hreplay
    | unrestored hreplay _ =>
      obtain ⟨-, rfl⟩ := Prod.mk.inj hreplay
      rfl
    | restored hreplay _ hfinish =>
      obtain ⟨-, rfl⟩ := Prod.mk.inj hreplay
      cases hfinish <;> rfl

theorem Named.follow (h : core.Named) {event : Event} (hguard : core.AuditAhead event) :
    (core.follow event).Named := by
  match event with
  | .call ⟨operation, disk⟩ =>
    have hdisk : (core.onDisk disk).Named := h.mono rfl rfl le_rfl le_rfl
    exact preserved_named.perform ofStores_named hdisk operation
  | .restart config surviving disk =>
    have hstatus := hguard.1
    change (core.restart config surviving disk).2.Named
    unfold restart at hstatus ⊢
    cases hjournal : core.journal with
    | none => exact .of_empty rfl rfl
    | some journal =>
      rw [hjournal] at hstatus
      exact named_boot hstatus

/-- The stores name nothing that has not been issued, if every restart is ahead. -/
theorem issued_of_reachable (h : Reachable Starting follow AuditAhead core) : core.Issued := by
  have hsound : core.Sound :=
    h.invariant (fun _ => Starting.sound) fun _ _ hcore hguard => hcore.follow hguard
  have hnamed : core.Named := by
    refine h.invariant (fun core hstarting => ?_) fun _ _ hcore hguard => hcore.follow hguard
    rcases hstarting with ⟨config, rfl⟩ | ⟨config, options, disk, rfl⟩
    · exact .of_empty rfl rfl
    · exact named_boot_new config options disk
  exact { hsound.consistent, hnamed with }

/-! ### The engines after the submission -/

/-- What a refusal of a request leaves behind. -/
def extraOf (core : EngineCore) (request : AdmissionRequest)
    (hpos : 0 < core.nextDecisionSequence) : Extra where
  decision := core.nextDecisionSequence
  audit := core.audit
  demand := request.demand
  attempt := request.attempt
  request := request.request
  decision_pos := hpos

namespace Issued

variable {journal : Option Journal} (h : core.Issued) (request : AdmissionRequest)

include h

theorem lt_of_holds {d : AdmissionDecisionId} (hd : core.ledger.holds d = true) :
    d < core.nextDecisionSequence := by
  obtain ⟨record, hfind, -⟩ := h.admitting d hd
  exact (h.below d record hfind).1

theorem twin_ledger : core.ledger.Twin (core.extraOf request h.next_pos) core.ledger := by
  refine ⟨rfl, rfl, rfl, carries_skip fun d es hget => ?_, ?_⟩
  · have hd : d < core.nextDecisionSequence :=
      h.lt_of_holds (by rw [AdmittedLoadLedger.holds, hget]; rfl)
    refine ⟨hd, (List.map_congr_left fun entry hentry => ?_).trans (List.map_id es)⟩
    refine Extra.renameEntry_of_lt ?_
    rw [h.wellFormed.decision_eq d es hget entry hentry]
    exact hd
  · cases hget : core.ledger.byDecision[core.nextDecisionSequence]? with
    | none => exact hget
    | some es =>
      have hheld := h.lt_of_holds (d := core.nextDecisionSequence)
        (by rw [AdmittedLoadLedger.holds, hget]; rfl)
      exact absurd hheld (Nat.lt_irrefl _)

theorem find_next : core.history.records[core.nextDecisionSequence]? = none := by
  cases hfind : core.history.records[core.nextDecisionSequence]? with
  | none => rfl
  | some record => exact absurd (h.below _ record hfind).1 (Nat.lt_irrefl _)

theorem twin_history : core.history.Twin (core.extraOf request h.next_pos) core.history := by
  refine ⟨carries_skip fun d record hget => ?_, carries_skip fun a d hget => ?_,
    fun d hget => ?_, fun record hget => ?_⟩
  · obtain ⟨hd, haudit⟩ := h.below d record hget
    refine ⟨hd, Extra.renameRecord_of_lt ?_ haudit⟩
    rw [(h.indexed.listed d record hget).1]
    exact hd
  · obtain ⟨record, hrecord, rfl⟩ := h.indexed.recorded a d hget
    obtain ⟨hd, haudit⟩ := h.below d record hrecord
    exact ⟨haudit, skip_of_lt hd⟩
  · obtain ⟨record, hrecord, haudit⟩ := h.indexed.recorded _ d hget
    exact absurd haudit (h.below d record hrecord).2.ne
  · have hnone := h.find_next.symm.trans hget
    cases hnone

theorem carries_cache : Carries (core.extraOf request h.next_pos).rename
    (core.extraOf request h.next_pos).renameDecision core.decisionCache core.decisionCache := by
  refine carries_skip fun d decision hget => ?_
  obtain ⟨hd, hdecision, haudit⟩ := h.cached d decision hget
  exact ⟨hd, Extra.renameDecision_of_lt hdecision haudit⟩

theorem map_attempts (key : DemandId × AttemptId) : core.attempts.attempts[key]? =
    (core.attempts.attempts[key]?).map (core.extraOf request h.next_pos).renameAttempt := by
  cases hget : core.attempts.attempts[key]? with
  | none => rfl
  | some attempt =>
    exact congrArg some (Extra.renameAttempt_of_lt (h.attempted key attempt hget)).symm

theorem twin_consumeIdentity (hjournal : Journal.Twin core.journal journal) :
    core.Twin (core.extraOf request h.next_pos) { core.consumeIdentity with journal } where
  authority := rfl
  config := rfl
  sessions := rfl
  nextSessionNonce := rfl
  ledger := h.twin_ledger request
  history := h.twin_history request
  cache := h.carries_cache request
  attempts key _ := h.map_attempts request key
  requests _ _ := rfl
  next := rfl
  next_le := Nat.le_refl _
  audit := rfl
  audit_le := Nat.le_refl _
  journal := hjournal
  journalReady := rfl

theorem twin_settle (hroom : core.Unfilled) {decision : AdmissionDecision}
    {record : DecisionRecord} {attempt : Option AttemptRecord}
    (hdecision : decision.decision = core.nextDecisionSequence)
    (hrecord : record.decision = core.nextDecisionSequence) (haudit : record.audit = core.audit)
    (hrefuses : record.outcome.isAdmitting = false)
    (hattempt : ∀ a ∈ attempt, a.key = (request.demand, request.attempt) ∧
      a.request = request.request) (hjournal : Journal.Twin core.journal journal) :
    core.Twin (core.extraOf request h.next_pos)
      (({ core.consumeIdentity with journal } : EngineCore).settle decision record attempt) :=
  { h.twin_consumeIdentity request hjournal with
    history := by
      change core.history.Twin _ (trimHistory (core.history.insert record) core.ledger)
      rw [DecisionHistory.trimHistory_insert_of_lt hroom.history]
      exact (h.twin_history request).insert_extra hrecord haudit hrefuses h.find_next
    cache := by
      change Carries _ _ core.decisionCache (remember core.decisionCache decision)
      rw [remember_of_lt hroom.cache, hdecision]
      exact (h.carries_cache request).add (Extra.rename_ne _) decision
    attempts := by
      intro key hkey
      cases attempt with
      | none => exact h.map_attempts request key
      | some a =>
        have hother : ¬ (request.demand, request.attempt) = key := Ne.symm hkey
        change (core.attempts.record a).attempts[key]? = _
        rw [getElem?_attempts_record (Or.inr hroom.attempts), (hattempt a rfl).1,
          if_neg hother]
        exact h.map_attempts request key
    requests := by
      intro id hid
      cases attempt with
      | none => rfl
      | some a =>
        change (core.attempts.record a).requestFingerprints[id]? = _
        rw [getElem?_requestFingerprints_record, (hattempt a rfl).2,
          if_neg fun heq => hid heq.1.symm] }

end Issued

/-- In every run in which the restarts succeed and are ahead of the audit sequences they find, the
identity that the next decision gets names nothing in any store. -/
theorem next_unnamed (h : Reachable Starting follow AuditAhead core) :
    core.ledger.holds core.nextDecisionSequence = false ∧
      core.history.find core.nextDecisionSequence = none ∧
      core.decisionCache[core.nextDecisionSequence]? = none ∧
      ∀ (key : DemandId × AttemptId) attempt, core.attempts.attempts[key]? = some attempt →
        attempt.decision ≠ core.nextDecisionSequence := by
  have hissued := issued_of_reachable h
  refine ⟨?_, hissued.find_next, ?_, fun key attempt hget => ?_⟩
  · by_contra hheld
    exact Nat.lt_irrefl _ (hissued.lt_of_holds (Bool.of_not_eq_false hheld))
  · by_contra hcached
    obtain ⟨decision, hget⟩ := Option.ne_none_iff_exists'.mp hcached
    exact Nat.lt_irrefl _ (hissued.cached _ decision hget).1
  · exact (hissued.attempted key attempt hget).ne

theorem twin_written (journal : Option Journal) (ready : Bool) (record : JournalRecord)
    (first disk : List DiskOutcome) :
    Journal.Twin (journal.map fun j => { j with disk })
      ((writeJournal (journal.map fun j => { j with disk := first }) ready record).2.map
        fun j => { j with disk }) := by
  cases journal with
  | none => exact .none
  | some journal =>
    cases ready with
    | false => exact .some rfl rfl rfl
    | true => exact .some (Journal.isOpen_append _ record) (Journal.options_append _ record) rfl

theorem Issued.onDisk (h : core.Issued) (disk : List DiskOutcome) : (core.onDisk disk).Issued :=
  { h.toConsistent.mono rfl rfl le_rfl le_rfl,
    h.toNamed.mono rfl rfl le_rfl le_rfl with }

/-- A submission is refused, for whatever reason. -/
def Refused (core : EngineCore) (request : AdmissionRequest) (claim : ClaimContext) : Prop :=
  match core.verdict request claim with
  | .refuse _ _ _ | .retired _ => True
  | _ => False

instance (core : EngineCore) (request : AdmissionRequest) (claim : ClaimContext) :
    Decidable (core.Refused request claim) := by
  unfold Refused
  generalize core.verdict request claim = verdict
  induction verdict using Verdict.casesOn with
  | refuse _ _ _ | retired _ => exact instDecidableTrue
  | replay _ | grant _ => exact instDecidableFalse

theorem refused_of_fenced (h : core.checkFence claim = .error refusal)
    (request : AdmissionRequest) : core.Refused request claim := by
  unfold Refused verdict
  cases request.validate with
  | error contract => exact trivial
  | ok _ =>
    rw [h]
    exact trivial

theorem twin_of_refuse (h : core.Issued) (hroom : core.Unfilled) {reason : Refusal}
    (hrefuses : reason.Refuses) (evidence : Option Evidence) (recordAttempt : Bool)
    (counters : Counters) (first disk : List DiskOutcome) :
    (core.onDisk disk).Twin (core.extraOf request h.next_pos)
      ((({ core.onDisk first with counters } : EngineCore).refuse request claim reason evidence
        recordAttempt).2.onDisk disk) := by
  generalize hcounted : ({ core.onDisk first with counters } : EngineCore) = counted
  have hdecision : (counted.refusal request claim reason evidence).decision =
      core.nextDecisionSequence := by rw [decision_refusal, ← hcounted]; rfl
  have haudit : (counted.refusal request claim reason evidence).audit = core.audit := by
    rw [audit_refusal, ← hcounted]; rfl
  have hadmitting : (counted.refusal request claim reason evidence).outcome.isAdmitting =
      false := by
    rw [outcome_refusal]
    exact hrefuses
  have hjournal := twin_written core.journal core.journalReady (.admissionRefused
    (counted.consumeIdentity.toRecord (counted.refusal request claim reason evidence))) first disk
  rw [refuse, answer_snd]
  generalize counted.refusal request claim reason evidence = decision at *
  generalize hcall : counted.consumeIdentity.finishRefusal _ _ _ = outcome
  subst hcounted
  cases finishRefusal_effect hcall with
  | @unwritten status journal hwrite =>
    change writeJournal (core.journal.map _) core.journalReady _ = _ at hwrite
    rw [hwrite] at hjournal
    exact { (h.onDisk disk).twin_consumeIdentity request hjournal with }
  | @settled journal hwrite =>
    change writeJournal (core.journal.map _) core.journalReady _ = _ at hwrite
    rw [hwrite] at hjournal
    have hrecord : (core.toRecord decision).outcome.isAdmitting = false := hadmitting
    have hattempt : ∀ a ∈ if recordAttempt then some (core.attemptOf request decision) else none,
        a.key = (request.demand, request.attempt) ∧ a.request = request.request := by
      intro a ha
      cases recordAttempt with
      | false => cases ha
      | true =>
        obtain rfl := Option.some.inj ha
        exact ⟨rfl, rfl⟩
    exact { (h.onDisk disk).twin_settle request ⟨hroom.history, hroom.cache, hroom.attempts⟩
      hdecision hdecision haudit hrecord hattempt hjournal with }

theorem twin_of_refused (h : core.Issued) (hroom : core.Unfilled)
    (hrefused : core.Refused request claim) (first disk : List DiskOutcome) :
    (core.onDisk disk).Twin (core.extraOf request h.next_pos)
      ((core.after { operation := .admitRequest request claim, disk := first }).onDisk disk) := by
  rw [after, next, perform, answering_snd, admitLocked]
  change match (core.onDisk first).verdict request claim with
    | .refuse _ _ _ | .retired _ => True
    | _ => False at hrefused
  cases hverdict : (core.onDisk first).verdict request claim with
  | refuse reason evidence recordAttempt =>
    exact twin_of_refuse h hroom (refuses_of_verdict.1 _ _ _ hverdict) evidence recordAttempt
      core.counters first disk
  | retired reason =>
    exact twin_of_refuse h hroom (refuses_of_verdict.2 _ hverdict) none false
      (core.onDisk first).countReplay.counters first disk
  | replay | grant => rw [hverdict] at hrefused; exact hrefused.elim

end EngineCore

/-! ### Two engines side by side -/

/-- Two answers that tell the caller the same, beside identities and explanations. -/
inductive Answer.Alike : Answer → Answer → Prop
  | status {result result' : Except Status Unit} (h : Agree (fun _ _ => True) result result') :
      Alike (.status result) (.status result')
  | decision {result result' : Except Status AdmissionDecision}
      (h : Agree (fun a b => EngineCore.shown b = EngineCore.shown a) result result') :
      Alike (.decision result) (.decision result')
  | revalidation {result result' : Except Status RevalidationResult}
      (h : Agree (fun a b => EngineCore.findingOf b = EngineCore.findingOf a) result result') :
      Alike (.revalidation result) (.revalidation result')
  | session {result result' : Except Status EngineCore.SessionGrant} (h : Agree Eq result result') :
      Alike (.session result) (.session result')

/-- The call that names the same decision in the engine with the extra refusal. -/
def Operation.rename (extra : Extra) : Operation → Operation
  | .revalidate d claim => .revalidate (extra.rename d) claim
  | .revoke d reason claim => .revoke (extra.rename d) reason claim
  | operation => operation

namespace EngineCore

variable {call : Call} {extra : Extra} {core core' : EngineCore}

/-- One call on both engines; the disk does the same to both. -/
def sideBySide (extra : Extra) (pair : EngineCore × EngineCore) (call : Call) :
    EngineCore × EngineCore :=
  (pair.1.after call, pair.2.after { call with operation := call.operation.rename extra })

/-- A request asks for another attempt under another request identity, and both engines have room
for its decision; a journal in use is not compacted. -/
def Undisturbed (extra : Extra) (pair : EngineCore × EngineCore) (call : Call) : Prop :=
  match call.operation with
  | .admitRequest request _ =>
    ((request.demand, request.attempt) ≠ (extra.demand, extra.attempt) ∧
      request.request ≠ extra.request) ∧ pair.1.HasSpace 2 ∧ pair.2.HasSpace 2
  | .compactJournal => pair.1.journalReady = false
  | _ => True

instance (extra : Extra) (pair : EngineCore × EngineCore) (call : Call) :
    Decidable (Undisturbed extra pair call) := by
  unfold Undisturbed
  split <;> infer_instance

/-- What the two engines answer. -/
def Alike (extra : Extra) (pair : EngineCore × EngineCore) (call : Call) : Prop :=
  ((pair.1.onDisk call.disk).perform call.operation).1.Alike
    ((pair.2.onDisk call.disk).perform (call.operation.rename extra)).1

theorem HasSpace.onDisk {frames : Nat} (h : core.HasSpace frames) (disk : List DiskOutcome) :
    (core.onDisk disk).HasSpace frames := by
  refine ⟨⟨h.history, h.cache, h.attempts⟩, fun hready journal hjournal => ?_⟩
  obtain ⟨old, hold, rfl⟩ := Option.map_eq_some_iff.mp hjournal
  exact h.frames hready old hold

theorem Twin.onDisk (h : core.Twin extra core') (disk : List DiskOutcome) :
    (core.onDisk disk).Twin extra (core'.onDisk disk) := by
  refine { h with journal := ?_ }
  have hjournal := h.journal
  unfold EngineCore.onDisk
  generalize core.journal = journal at hjournal ⊢
  generalize core'.journal = journal' at hjournal ⊢
  cases hjournal with
  | none => exact .none
  | some hopen hoptions _ => exact .some hopen hoptions rfl

theorem Twin.perform (h : core.Twin extra core') (hguard : Undisturbed extra (core, core') call) :
    (core.perform call.operation).1.Alike (core'.perform (call.operation.rename extra)).1 ∧
      (core.perform call.operation).2.Twin extra
        (core'.perform (call.operation.rename extra)).2 := by
  have hstatus : ∀ {outcome outcome' : Outcome Unit},
      Outcome.Twin (fun _ _ => True) (Twin extra) outcome outcome' →
        (answering .status outcome).1.Alike (answering .status outcome').1 ∧
          (answering .status outcome).2.Twin extra (answering .status outcome').2 :=
    fun houtcome => ⟨.status houtcome.result, houtcome.core⟩
  have hfinding : ∀ {outcome outcome' : Outcome RevalidationResult},
      Outcome.Twin (SameFinding extra) (Twin extra) outcome outcome' →
        (answering .revalidation outcome).1.Alike (answering .revalidation outcome').1 ∧
          (answering .revalidation outcome).2.Twin extra (answering .revalidation outcome').2 :=
    fun houtcome => ⟨.revalidation (houtcome.result.imp fun _ _ hsame => hsame.finding),
      houtcome.core⟩
  obtain ⟨operation, disk⟩ := call
  cases operation with
  | publishPolicy policy => exact hstatus (h.publishPolicy policy)
  | publishCapacity snapshot => exact hstatus (h.publishCapacity snapshot)
  | publishReservations snapshot => exact hstatus (h.publishReservations snapshot)
  | publishPaths catalog => exact hstatus (h.publishPaths catalog)
  | publishQosCatalog catalog => exact hstatus (h.publishQosCatalog catalog)
  | publishPriorityCatalog catalog => exact hstatus (h.publishPriorityCatalog catalog)
  | invalidateCapacity => exact hstatus h.invalidateCapacity
  | invalidatePaths => exact hstatus h.invalidatePaths
  | admitRequest request claim =>
    obtain ⟨⟨hkey, hrequest⟩, hspace, hspace'⟩ := hguard
    have hspacious : core.SpaciousTwin extra 2 core' := ⟨h, hspace, hspace'⟩
    have hadmission := hspacious.admitLocked ⟨hkey, hrequest⟩ claim
    exact ⟨.decision hadmission.result, hadmission.core⟩
  | revalidate d claim => exact hfinding (h.revalidateLocked d claim)
  | revoke d reason claim => exact hfinding (h.revokeLocked d reason claim)
  | registerSession publisher boot =>
    have hsession := h.registerSession publisher boot
    exact ⟨.session hsession.result, hsession.core⟩
  | retireSession session => exact hstatus (h.retireSession session)
  | beginNewIncarnation incarnation => exact hstatus (h.beginNewIncarnation incarnation)
  | advanceTick ticks => exact ⟨.status (.ok trivial), h.advanceTick ticks⟩
  | compactJournal => exact hstatus (h.compactLocked hguard)

/-- The two engines are twins whenever the disk does the same to both. -/
def TwinPair (extra : Extra) (pair : EngineCore × EngineCore) : Prop :=
  ∀ disk, (pair.1.onDisk disk).Twin extra (pair.2.onDisk disk)

theorem Undisturbed.onDisk {pair : EngineCore × EngineCore} (h : Undisturbed extra pair call)
    (disk : List DiskOutcome) :
    Undisturbed extra (pair.1.onDisk disk, pair.2.onDisk disk) call := by
  obtain ⟨operation, script⟩ := call
  cases operation with
  | admitRequest request claim =>
    obtain ⟨hapart, hspace, hspace'⟩ := h
    exact ⟨hapart, hspace.onDisk disk, hspace'.onDisk disk⟩
  | _ => exact h

theorem TwinPair.alike {pair : EngineCore × EngineCore} (h : TwinPair extra pair)
    (hguard : Undisturbed extra pair call) : Alike extra pair call :=
  ((h call.disk).perform (hguard.onDisk call.disk)).1

theorem TwinPair.sideBySide {pair : EngineCore × EngineCore} (h : TwinPair extra pair)
    (hguard : Undisturbed extra pair call) :
    TwinPair extra (sideBySide extra pair call) := fun disk =>
  ((h call.disk).perform (hguard.onDisk call.disk)).2.onDisk disk

/-- Engines that differ by a refusal stay twins in every run whose calls meet the condition. -/
theorem twinPair_of_refused (h : core.Issued) (hroom : core.Unfilled) {request : AdmissionRequest}
    {claim : ClaimContext} (hrefused : core.Refused request claim) {first : List DiskOutcome}
    {pair : EngineCore × EngineCore}
    (hrun : Reachable
      (· = (core, core.after { operation := .admitRequest request claim, disk := first }))
      (sideBySide (core.extraOf request h.next_pos))
      (Undisturbed (core.extraOf request h.next_pos)) pair) :
    TwinPair (core.extraOf request h.next_pos) pair := by
  refine hrun.invariant ?_ fun pair call hpair hguard => hpair.sideBySide hguard
  rintro _ rfl disk
  exact twin_of_refused h hroom hrefused first disk

/-- One engine refuses a fenced submission, the other never sees it. In every run in which each
later call meets the condition, the two hold the same load at every moment, and the next call that
meets the condition is answered alike. -/
theorem alike_of_fenced (h : core.Issued) (hroom : core.Unfilled) {request : AdmissionRequest}
    {claim : ClaimContext} {refusal : Refusal}
    (hfenced : core.checkFence claim = .error refusal) {first : List DiskOutcome}
    {pair : EngineCore × EngineCore}
    (hrun : Reachable
      (· = (core, core.after { operation := .admitRequest request claim, disk := first }))
      (sideBySide (core.extraOf request h.next_pos))
      (Undisturbed (core.extraOf request h.next_pos)) pair) :
    pair.1.ledger.Twin (core.extraOf request h.next_pos) pair.2.ledger ∧
      ∀ call, Undisturbed (core.extraOf request h.next_pos) pair call →
        Alike (core.extraOf request h.next_pos) pair call := by
  have htwin := twinPair_of_refused h hroom (refused_of_fenced hfenced request) hrun
  exact ⟨(htwin []).ledger, fun call hguard => htwin.alike hguard⟩

/-- The same for a submission that is refused for any reason, a replay whose decision has been
retired included. -/
theorem alike_of_refused (h : core.Issued) (hroom : core.Unfilled) {request : AdmissionRequest}
    {claim : ClaimContext} (hrefused : core.Refused request claim) {first : List DiskOutcome}
    {pair : EngineCore × EngineCore}
    (hrun : Reachable
      (· = (core, core.after { operation := .admitRequest request claim, disk := first }))
      (sideBySide (core.extraOf request h.next_pos))
      (Undisturbed (core.extraOf request h.next_pos)) pair) :
    pair.1.ledger.Twin (core.extraOf request h.next_pos) pair.2.ledger ∧
      ∀ call, Undisturbed (core.extraOf request h.next_pos) pair call →
        Alike (core.extraOf request h.next_pos) pair call := by
  have htwin := twinPair_of_refused h hroom hrefused hrun
  exact ⟨(htwin []).ledger, fun call hguard => htwin.alike hguard⟩

section Examples

open SmallFabric

/-- An engine with one resource, before it has decided anything. -/
def undecided : EngineCore :=
  TransitionSystem.run follow (EngineCore.fresh {}) (Event.calls (announce [known 1 1 100]))

/-- A claim that names an epoch that is not current. -/
def bygoneClaim : ClaimContext := { epoch := 7 }

/-- The submission that the fence refuses. -/
def fencedSubmission : Operation := .admitRequest (request 1 ⟨1, 20, 20⟩ [1]) bygoneClaim

theorem issued_undecided : undecided.Issued := by
  have hstart : Reachable Starting follow AuditAhead (fresh {}) :=
    .init (Or.inl ⟨{}, rfl⟩)
  have hcalls : Allowed follow AuditAhead (fresh {})
      (Event.calls (announce [known 1 1 100])) :=
    ⟨trivial, trivial, trivial, trivial, trivial, trivial⟩
  exact issued_of_reachable (hstart.run hcalls)

/-- An engine that has decided, was restarted and has decided again. -/
def restartedTwice : EngineCore :=
  TransitionSystem.run follow auditedCore
    (announcedRun ++ Event.calls [.compactJournal] ++ resumedRun)

theorem next_unnamed_restarted :
    (restartedTwice.ledger.holds 1 = true ∧ 1 < restartedTwice.nextDecisionSequence) ∧
      restartedTwice.ledger.holds restartedTwice.nextDecisionSequence = false ∧
      restartedTwice.history.find restartedTwice.nextDecisionSequence = none := by
  have hallowed : Allowed follow AuditAhead auditedCore
      (announcedRun ++ Event.calls [.compactJournal] ++ resumedRun) := by
    decide +kernel
  have hstart : Reachable Starting follow AuditAhead auditedCore :=
    .init (Or.inr ⟨{ epoch := 0 }, {}, [], rfl⟩)
  have hnext := next_unnamed (hstart.run hallowed)
  exact ⟨by decide +kernel, hnext.1, hnext.2.1⟩

theorem fenced_undecided : ∃ refusal, undecided.checkFence bygoneClaim = .error refusal := by
  have hnot : undecided.checkFence bygoneClaim ≠ .ok () := by decide +kernel
  cases hfence : undecided.checkFence bygoneClaim with
  | error refusal => exact ⟨refusal, rfl⟩
  | ok _ => exact absurd hfence hnot

/-- What the refusal adds. -/
def fencedExtra : Extra := undecided.extraOf (request 1 ⟨1, 20, 20⟩ [1]) issued_undecided.next_pos

/-- Another attempt is admitted, and its grant is revoked. -/
def laterCalls : List Call :=
  [{ operation := .admitRequest (request 2 ⟨1, 20, 20⟩ [1]) {} },
    { operation := .revoke 1 .operatorRequest {} }]

/-- The engines after the later calls. -/
def laterPair : EngineCore × EngineCore :=
  TransitionSystem.run (sideBySide fencedExtra)
    (undecided, undecided.after { operation := fencedSubmission }) laterCalls

theorem allowed_laterCalls : Allowed (sideBySide fencedExtra) (Undisturbed fencedExtra)
    (undecided, undecided.after { operation := fencedSubmission }) laterCalls := by
  decide +kernel

/-- A third attempt is answered alike, and so is everything before it. -/
theorem alike_thirdAttempt : Alike fencedExtra laterPair
    { operation := .admitRequest (request 3 ⟨1, 20, 20⟩ [1]) {} } := by
  obtain ⟨refusal, hfenced⟩ := fenced_undecided
  have hroom : undecided.HasSpace 0 := by decide +kernel
  have hguard : Undisturbed fencedExtra laterPair
      { operation := .admitRequest (request 3 ⟨1, 20, 20⟩ [1]) {} } := by decide +kernel
  have hstart : Reachable (· = (undecided, undecided.after { operation := fencedSubmission }))
      (sideBySide fencedExtra) (Undisturbed fencedExtra)
      (undecided, undecided.after { operation := fencedSubmission }) := .init rfl
  exact (alike_of_fenced issued_undecided hroom.toUnfilled hfenced
    (hstart.run allowed_laterCalls)).2 _ hguard

/-- A request for more than there is. -/
def overload : Operation := .admitRequest (request 1 ⟨200, 200, 200⟩ [1]) {}

/-- Another attempt is admitted after the overload, and without it. -/
def overloadPair : EngineCore × EngineCore :=
  TransitionSystem.run (sideBySide fencedExtra)
    (undecided, undecided.after { operation := overload }) (laterCalls.take 1)

/-- Both hold the load of the other attempt, and a third one is answered alike. -/
theorem alike_overload :
    (overloadPair.1.ledger.admitted 1 = 20 ∧ overloadPair.2.ledger.admitted 1 = 20) ∧
      overloadPair.1.ledger.Twin fencedExtra overloadPair.2.ledger ∧
      Alike fencedExtra overloadPair
        { operation := .admitRequest (request 3 ⟨1, 20, 20⟩ [1]) {} } := by
  have hroom : undecided.HasSpace 0 := by decide +kernel
  have hrefused : undecided.Refused (request 1 ⟨200, 200, 200⟩ [1]) {} := by decide +kernel
  have hguard : Undisturbed fencedExtra overloadPair
      { operation := .admitRequest (request 3 ⟨1, 20, 20⟩ [1]) {} } := by decide +kernel
  have hallowed : Allowed (sideBySide fencedExtra) (Undisturbed fencedExtra)
      (undecided, undecided.after { operation := overload }) (laterCalls.take 1) := by
    decide +kernel
  have hstart : Reachable (· = (undecided, undecided.after { operation := overload }))
      (sideBySide fencedExtra) (Undisturbed fencedExtra)
      (undecided, undecided.after { operation := overload }) := .init rfl
  have halike := alike_of_refused issued_undecided hroom.toUnfilled hrefused (hstart.run hallowed)
  exact ⟨by decide +kernel, halike.1, halike.2 _ hguard⟩

/-- What the holder of a live claim is told when it asks for an attempt, first of an engine that
never saw the fenced submission of that attempt, then of one that refused it. The first admits and
holds the load; the second replays the refusal and holds nothing. -/
theorem swayed_by_fenced :
    undecided.checkFence {} = .ok () ∧ undecided.checkFence bygoneClaim ≠ .ok () ∧
      ((undecided.admitLocked (request 1 ⟨1, 20, 20⟩ [1]) {}).1.toOption.map shown =
        some ⟨.admitted, 20, 0, false⟩) ∧
      (((undecided.after { operation := fencedSubmission }).admitLocked
          (request 1 ⟨1, 20, 20⟩ [1]) {}).1.toOption.map shown =
        some ⟨.fencedClaimant, 0, 0, true⟩) ∧
      (undecided.admitLocked (request 1 ⟨1, 20, 20⟩ [1]) {}).2.ledger.admitted 1 = 20 ∧
      ((undecided.after { operation := fencedSubmission }).admitLocked
        (request 1 ⟨1, 20, 20⟩ [1]) {}).2.ledger.admitted 1 = 0 := by
  decide +kernel

end Examples

end EngineCore

end AdmissionFabric
