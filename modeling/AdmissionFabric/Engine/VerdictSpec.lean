import AdmissionFabric.Engine.Effects
import AdmissionFabric.Engine.EvaluateSpec

/-!
# Fresh admissions

An admission call can answer with an admitting outcome in two ways: it replays a decision it made
before, or it grants. This file shows that there is no third: every stage that refuses refuses
with an outcome that does not admit. What an answer says about the request is thereby reduced to
what the evaluation established, and what it says about the ledger to the reservation behind it.
-/

namespace AdmissionFabric

variable {refusal : Refusal} {selection : PathSelection}

/-- A refusal whose outcome does not admit. -/
def Refusal.Refuses (refusal : Refusal) : Prop := refusal.outcome.isAdmitting = false

/-- A refusal for evidence that is missing or superseded. -/
def Refusal.Stale (refusal : Refusal) : Prop := refusal.outcome = .staleInput

/-- A refusal for lack of capacity. -/
def Refusal.ForCapacity (refusal : Refusal) : Prop :=
  refusal.outcome = .rejectCapacity ∨ refusal.outcome = .rejectObligation ∨
    refusal.outcome = .defer

theorem Refusal.Stale.refuses (h : refusal.Stale) : refusal.Refuses := by
  rw [Refuses, h]
  rfl

theorem Refusal.ForCapacity.refuses (h : refusal.ForCapacity) : refusal.Refuses := by
  rcases h with h | h | h
  all_goals
    rw [Refuses, h]
    rfl

namespace Authority

variable (authority : Authority) (ledger : AdmittedLoadLedger) (request : AdmissionRequest)

/-! ### No stage refuses with an admitting outcome -/

theorem failsWith_checkReadiness : FailsWith Refusal.Refuses authority.checkReadiness := by
  unfold checkReadiness
  split <;> simp [Refusal.Refuses, AdmissionOutcome.isAdmitting]

theorem stale_requireGeneration (observed current : Generation) (subject : String) :
    FailsWith Refusal.Stale (requireGeneration observed current subject) := by
  simp [requireGeneration, failsWith_bind, Refusal.Stale, unknown, stale]

theorem stale_checkExpectations :
    FailsWith Refusal.Stale (authority.checkExpectations request) := by
  have hcapacity : FailsWith Refusal.Stale
      (authority.checkCapacityExpectation request.expected) := by
    unfold checkCapacityExpectation
    split <;> simp [failsWith_bind, stale_requireGeneration, Refusal.Stale, unknown, stale]
  have hreservations : FailsWith Refusal.Stale
      (authority.checkReservationExpectation request.expected) := by
    unfold checkReservationExpectation
    split <;> simp [failsWith_bind, stale_requireGeneration, Refusal.Stale, unknown, stale]
  have hpath : FailsWith Refusal.Stale (authority.checkPathExpectation request) := by
    unfold checkPathExpectation
    split
    · split <;> simp [stale_requireGeneration, Refusal.Stale, unknown]
    · simp
  have hbinding : ∀ b, FailsWith Refusal.Stale (authority.checkBinding b) := by
    intro b
    unfold checkBinding
    split <;> simp [failsWith_bind, Refusal.Stale, unknown, stale]
  have hcandidate : ∀ c, FailsWith Refusal.Stale (authority.checkCandidate c) := by
    intro c
    unfold checkCandidate
    split <;> simp [Refusal.Stale, unknown, stale]
  have hqos : FailsWith Refusal.Stale (authority.checkQosClass request) := by
    unfold checkQosClass
    split <;> simp [Refusal.Stale, unknown, stale]
  have hpriority : FailsWith Refusal.Stale (authority.checkPriorityClass request) := by
    unfold checkPriorityClass
    split <;> simp [Refusal.Stale, unknown, stale]
  have href : ∀ r, FailsWith Refusal.Stale (authority.checkReservationRef r) := by
    intro r
    unfold checkReservationRef
    split <;> simp [Refusal.Stale, unknown, stale]
  simp only [checkExpectations, failsWith_bind, stale_requireGeneration, hcapacity,
    hreservations, hpath, hqos, hpriority, FailsWith.forM hbinding, FailsWith.forM hcandidate,
    FailsWith.forM href, implies_true, and_self]

theorem failsWith_checkExpectations :
    FailsWith Refusal.Refuses (authority.checkExpectations request) :=
  (authority.stale_checkExpectations request).imp fun _ => Refusal.Stale.refuses

theorem failsWith_checkPolicy : FailsWith Refusal.Refuses (authority.checkPolicy request) := by
  have hwindow : FailsWith Refusal.Refuses (authority.checkQosWindow request) := by
    unfold checkQosWindow
    split <;> simp [failsWith_bind, Refusal.Refuses, AdmissionOutcome.isAdmitting]
  unfold checkPolicy
  split <;> simp [failsWith_bind, hwindow, Refusal.Refuses, AdmissionOutcome.isAdmitting]

theorem failsWith_searchPaths (search : PathSearch) (candidates : List PathCandidate) :
    FailsWith Refusal.Refuses (authority.searchPaths ledger request search candidates) := by
  induction candidates generalizing search with
  | nil =>
    rw [searchPaths, concludeSearch]
    split <;> simp [Refusal.Refuses, AdmissionOutcome.isAdmitting]
  | cons candidate rest ih =>
    rw [searchPaths]
    split
    · simp
    all_goals exact ih _

theorem failsWith_selectPath : FailsWith Refusal.Refuses (authority.selectPath ledger request) := by
  unfold selectPath
  split
  · split <;> simp [Refusal.Refuses, AdmissionOutcome.isAdmitting]
  · exact authority.failsWith_searchPaths ledger request _ _

theorem failsWith_resolve : FailsWith Refusal.Refuses (authority.resolve ledger request) := by
  simp [resolve, failsWith_bind, failsWith_checkReadiness, failsWith_checkExpectations,
    failsWith_checkPolicy, failsWith_selectPath, Refusal.Refuses, AdmissionOutcome.isAdmitting]

theorem forCapacity_checkView (view : ResourceView) :
    FailsWith Refusal.ForCapacity (authority.checkView request view) := by
  simp only [checkView, failsWith_bind, failsWith_rejectIf]
  refine ⟨fun _ => .inl rfl, fun _ _ => ⟨fun _ => .inl rfl, fun _ _ => ⟨fun _ => ?_,
    fun _ _ _ => ?_⟩⟩⟩
  · split
    · exact .inr (.inr rfl)
    · exact .inr (.inl rfl)
  · split
    · exact .inr (.inr rfl)
    · exact .inl rfl

theorem failsWith_scanTargets (limit : Limit) (views : List ResourceView)
    (targets : List ResourceId) :
    FailsWith (fun refusal => refusal.ForCapacity ∨
        refusal.Stale ∧ ∃ r ∈ targets, authority.knownCapacity r = none)
      (authority.scanTargets ledger request limit views targets).1 := by
  induction targets generalizing limit views with
  | nil => exact failsWith_ok limit
  | cons r rest ih =>
    rw [scanTargets]
    cases hknown : authority.knownCapacity r with
    | none => exact (failsWith_error _).mpr (Or.inr ⟨rfl, r, List.mem_cons_self, hknown⟩)
    | some entry =>
      simp only
      cases hcheck : authority.checkView request (authority.viewOf ledger r entry) with
      | error refusal =>
        exact (failsWith_error refusal).mpr
          (Or.inl (authority.forCapacity_checkView request _ _ hcheck))
      | ok u =>
        refine (ih _ _).imp fun refusal h => h.imp id ?_
        rintro ⟨hstale, r', hr', hnone⟩
        exact ⟨hstale, r', List.mem_cons_of_mem _ hr', hnone⟩

theorem forCapacity_capByPath (selectedPath : Option PathAdmissionFact) (limit : Limit) :
    FailsWith Refusal.ForCapacity (capByPath ledger request selectedPath limit) := by
  unfold capByPath
  split <;> simp [Refusal.ForCapacity, shortfall]

theorem failsWith_evaluateCapacity (targets : List ResourceId)
    (selectedPath : Option PathAdmissionFact) :
    FailsWith (fun refusal => refusal.ForCapacity ∨
        refusal.Stale ∧ ∃ r ∈ targets, authority.knownCapacity r = none)
      (authority.evaluateCapacity ledger request targets selectedPath).1 := by
  intro refusal h
  unfold evaluateCapacity at h
  cases hscan : (authority.scanTargets ledger request { rate := request.rate.maximum } []
      targets).1 with
  | error refusal' =>
    simp only [hscan, Except.bind, Except.map, Except.error.injEq] at h
    exact h ▸ authority.failsWith_scanTargets ledger request _ _ _ _ hscan
  | ok limit =>
    simp only [hscan, Except.bind] at h
    cases hcap : capByPath ledger request selectedPath limit with
    | error refusal' =>
      simp only [hcap, Except.map, Except.error.injEq] at h
      exact h ▸ Or.inl (forCapacity_capByPath ledger request _ limit _ hcap)
    | ok limit' => simp [hcap, Except.map] at h

theorem forCapacity_decideGrant (ceiling : Rate) (binding : BindingConstraint) :
    FailsWith Refusal.ForCapacity (authority.decideGrant request ceiling binding) := by
  simp only [decideGrant, failsWith_bind, failsWith_rejectIf]
  refine ⟨fun _ => .inl rfl, fun _ _ => ?_⟩
  split
  · exact failsWith_bind.mpr
      ⟨(failsWith_rejectIf _ _).mpr fun _ => .inl rfl, fun _ _ => failsWith_pure _⟩
  · exact failsWith_pure _

theorem failsWith_of_resolve {targets : List ResourceId}
    (hresolve : authority.resolve ledger request = .ok (selection, targets)) :
    FailsWith (fun failure => failure.1.ForCapacity ∨
        failure.1.Stale ∧ ∃ r ∈ targets, authority.knownCapacity r = none)
      (authority.evaluate ledger request) := by
  intro failure h
  simp only [evaluate, hresolve] at h
  cases hcap : (authority.evaluateCapacity ledger request targets
      (authority.selectedFact selection)).1 with
  | error refusal =>
    simp only [hcap, Except.bind, Except.error.injEq] at h
    exact h ▸ authority.failsWith_evaluateCapacity ledger request _ _ _ hcap
  | ok capacity =>
    simp only [hcap, Except.bind] at h
    cases hgrant : authority.decideGrant request capacity.1 capacity.2 with
    | error refusal =>
      simp only [hgrant, Except.error.injEq] at h
      exact h ▸ Or.inl (authority.forCapacity_decideGrant request _ _ _ hgrant)
    | ok grant => simp [hgrant] at h

theorem failsWith_evaluate :
    FailsWith (fun failure => failure.1.Refuses) (authority.evaluate ledger request) := by
  cases hresolve : authority.resolve ledger request with
  | error refusal =>
    intro failure h
    simp only [evaluate, hresolve, Except.error.injEq] at h
    exact h ▸ authority.failsWith_resolve ledger request _ hresolve
  | ok resolved =>
    refine (authority.failsWith_of_resolve ledger request hresolve).imp fun failure h => ?_
    exact h.elim Refusal.ForCapacity.refuses fun h => h.1.refuses

end Authority

namespace EngineCore

variable {evidence : Option Evidence} {reason : Refusal} {grant : Grant} {core core' : EngineCore}
    {request : AdmissionRequest} {claim : ClaimContext} {decision : AdmissionDecision}

theorem failsWith_checkFence (core : EngineCore) (claim : ClaimContext) :
    FailsWith Refusal.Refuses (core.checkFence claim) := by
  have hsession : FailsWith Refusal.Refuses (core.sessionMatches claim) := by
    unfold sessionMatches
    split <;> simp [Refusal.Refuses, fenceRefusal, AdmissionOutcome.isAdmitting]
  unfold checkFence
  split <;> simp [failsWith_bind, hsession, Refusal.Refuses, fenceRefusal,
    AdmissionOutcome.isAdmitting]

/-! ### The verdict -/

theorem refuses_of_verdict :
    (∀ reason evidence recordAttempt, core.verdict request claim =
      .refuse reason evidence recordAttempt → reason.Refuses) ∧
    ∀ reason, core.verdict request claim = .retired reason → reason.Refuses := by
  unfold verdict
  cases request.validate with
  | error contract =>
    refine ⟨fun reason evidence recordAttempt h => ?_, fun reason h => by cases h⟩
    simp only [Verdict.refuse.injEq] at h
    exact h.1 ▸ rfl
  | ok u =>
    cases hfence : core.checkFence claim with
    | error refusal =>
      refine ⟨fun reason evidence recordAttempt h => ?_, fun reason h => by cases h⟩
      simp only [Verdict.refuse.injEq] at h
      exact h.1 ▸ core.failsWith_checkFence claim _ hfence
    | ok u =>
      simp only
      cases (core.attempts.classify (probe request)).disposition with
      | replay =>
        simp only [replayVerdict]
        constructor
        · intro reason evidence recordAttempt h
          split at h <;> try split at h
          all_goals cases h
        · intro reason h
          split at h <;> try split at h
          all_goals cases h
          rfl
      | conflict =>
        refine ⟨fun reason evidence recordAttempt h => ?_, fun reason h => by cases h⟩
        simp only [Verdict.refuse.injEq] at h
        exact h.1 ▸ rfl
      | new =>
        cases heval : core.toAuthority.evaluate core.ledger request with
        | error failure =>
          refine ⟨fun reason evidence recordAttempt h => ?_, fun reason h => by cases h⟩
          simp only [Verdict.refuse.injEq] at h
          exact h.1 ▸ core.toAuthority.failsWith_evaluate core.ledger request _ heval
        | ok grant =>
          exact ⟨fun _ _ _ h => (by cases h), fun _ h => (by cases h)⟩

theorem validate_of_verdict (h : core.verdict request claim = .refuse reason evidence true) :
    request.validate = .ok () := by
  unfold verdict at h
  split at h
  · cases h
  · assumption

theorem replayVerdict_of_verdict (h : core.verdict request claim = .replay decision) :
    request.validate = .ok () ∧ core.checkFence claim = .ok () ∧
      (core.attempts.classify (probe request)).disposition = .replay ∧
      core.replayVerdict request (core.attempts.classify (probe request)).existing.decision =
        .replay decision := by
  unfold verdict at h
  split at h
  · cases h
  · rename_i hvalid
    split at h
    · cases h
    · rename_i hfence
      simp only at h
      split at h
      · rename_i hclass
        exact ⟨hvalid, hfence, hclass, h⟩
      · cases h
      · split at h <;> cases h

theorem replayOf_of_verdict (h : core.verdict request claim = .replay decision) :
    (∃ (d : AdmissionDecisionId) (cached : AdmissionDecision),
      core.decisionCache[d]? = some cached ∧
        decision = { cached with idempotentReplay := true }) ∨
      core.decisionCache[(core.attempts.classify (probe request)).existing.decision]? = none ∧
        ∃ record, core.history.find (core.attempts.classify (probe request)).existing.decision =
            some record ∧ decision = core.replayOf request record := by
  have hreplay := (replayVerdict_of_verdict h).2.2.2
  unfold replayVerdict at hreplay
  split at hreplay
  · rename_i cached hget
    cases hreplay
    exact Or.inl ⟨_, cached, hget, rfl⟩
  · rename_i hnone
    split at hreplay
    · rename_i record hfind
      cases hreplay
      exact Or.inr ⟨hnone, record, hfind, rfl⟩
    · cases hreplay

theorem replay_of_verdict (h : core.verdict request claim = .replay decision) :
    (∃ (id : AdmissionDecisionId) (cached : AdmissionDecision),
      core.decisionCache[id]? = some cached ∧
        decision = { cached with idempotentReplay := true }) ∨
      ∃ id record, core.history.find id = some record ∧
        decision = core.replayOf request record :=
  (replayOf_of_verdict h).imp_right fun ⟨_, record, hfind, hdecision⟩ =>
    ⟨_, record, hfind, hdecision⟩

theorem idempotentReplay_of_verdict (h : core.verdict request claim = .replay decision) :
    decision.idempotentReplay = true := by
  rcases replay_of_verdict h with ⟨id, cached, -, rfl⟩ | ⟨id, record, -, rfl⟩ <;> rfl

theorem outcome_of_refuse {recordAttempt : Bool}
    (h : core.refuse request claim reason evidence recordAttempt = (.ok decision, core')) :
    decision.outcome = reason.outcome := by
  have hanswer := congrArg Prod.fst h
  rw [refuse, answer_fst_eq_ok_iff] at hanswer
  rw [hanswer.2, outcome_refusal]

@[simp] theorem verdict_onDisk (core : EngineCore) (disk : List DiskOutcome)
    (request : AdmissionRequest) (claim : ClaimContext) :
    (core.onDisk disk).verdict request claim = core.verdict request claim := rfl

theorem verdict_of_room (hvalid : request.validate = .ok ())
    (hfence : core.checkFence claim = .ok ())
    (hnew : (core.attempts.classify (probe request)).disposition = .new)
    (hready : core.checkReadiness = .ok ()) (hexpected : core.checkExpectations request = .ok ())
    (hpermitted : core.checkPolicy request = .ok ())
    (hselect : core.selectPath core.ledger request = .ok selection)
    (hne : targetsOf request selection.traversal ≠ [])
    (hroom : ∀ r ∈ targetsOf request selection.traversal, ∃ free ∈ core.freeOn core.ledger r,
      request.rate.minimum ≤ free ∧
        (core.degradeAllowed request = true ∨ request.rate.desired ≤ free))
    (hpath : ∀ fact ∈ core.selectedFact selection,
      request.rate.minimum ≤ pathFree core.ledger fact fact.path ∧
        (core.degradeAllowed request = true ∨
          request.rate.desired ≤ pathFree core.ledger fact fact.path)) :
    ∃ grant, core.verdict request claim = .grant grant ∧
      grant.targets = targetsOf request selection.traversal ∧
      grant.evidence.path = selection.selected := by
  have hresolve : core.resolve core.ledger request =
      .ok (selection, targetsOf request selection.traversal) :=
    Authority.resolve_eq_ok_iff.mpr ⟨hready, hexpected, hpermitted, hselect, rfl, hne⟩
  obtain ⟨-, hminimum, hmaximum⟩ := AdmissionRequest.rate_of_validate hvalid
  obtain ⟨grant, hevaluate, hselected⟩ :=
    Authority.evaluate_of_room hresolve hminimum hmaximum hroom hpath
  obtain ⟨selection', _, _, hresolve', -⟩ := Authority.evaluate_eq_ok hevaluate
  refine ⟨grant, by simp only [verdict, hvalid, hfence, hnew, hevaluate], ?_, hselected⟩
  exact (Prod.mk.inj (Except.ok.inj (hresolve'.symm.trans hresolve))).2

theorem admitLocked_of_grant (hverdict : core.verdict request claim = .grant grant) :
    core.admitLocked request claim = answer (core.admission request claim grant)
      (core.consumeIdentity.finishAdmission (core.admission request claim grant) request
        (grant.targets.map fun resource => (resource, grant.granted))) := by
  simp only [admitLocked, hverdict]

theorem admitLocked_admitting (h : core.admitLocked request claim = (.ok decision, core'))
    (hadmitting : decision.outcome.isAdmitting = true) :
    (∃ grant, core.verdict request claim = .grant grant ∧
      decision = core.admission request claim grant) ∨
    core.verdict request claim = .replay decision ∧ core' = core.countReplay := by
  cases hverdict : core.verdict request claim with
  | refuse reason evidence recordAttempt =>
    simp only [admitLocked, hverdict] at h
    have hrefuses := refuses_of_verdict.1 _ _ _ hverdict
    rw [Refusal.Refuses, ← outcome_of_refuse h, hadmitting] at hrefuses
    exact absurd hrefuses (by decide)
  | retired reason =>
    simp only [admitLocked, hverdict] at h
    have hrefuses := refuses_of_verdict.2 _ hverdict
    rw [Refusal.Refuses, ← outcome_of_refuse h, hadmitting] at hrefuses
    exact absurd hrefuses (by decide)
  | replay replayed =>
    simp only [admitLocked, hverdict, Prod.mk.injEq, Except.ok.injEq] at h
    exact Or.inr ⟨h.1 ▸ rfl, h.2.symm⟩
  | grant grant =>
    have hanswer := congrArg Prod.fst (admitLocked_of_grant hverdict ▸ h)
    exact Or.inl ⟨grant, rfl, (answer_fst_eq_ok_iff.mp hanswer).2⟩

theorem admitLocked_fresh (h : core.admitLocked request claim = (.ok decision, core'))
    (hadmitting : decision.outcome.isAdmitting = true)
    (hfresh : decision.idempotentReplay = false) :
    ∃ grant, core.verdict request claim = .grant grant ∧
      decision = core.admission request claim grant := by
  refine (admitLocked_admitting h hadmitting).resolve_right fun ⟨hverdict, _⟩ => ?_
  rw [idempotentReplay_of_verdict hverdict] at hfresh
  cases hfresh

/-- Whether a call is answered with a fresh admitting decision. -/
def grantsFresh (core : EngineCore) (request : AdmissionRequest) (claim : ClaimContext) : Bool :=
  (core.admitLocked request claim).1.toOption.any fun decision =>
    decision.outcome.isAdmitting && !decision.idempotentReplay

theorem grantsFresh_eq_true_iff :
    core.grantsFresh request claim = true ↔ ∃ decision core',
      core.admitLocked request claim = (.ok decision, core') ∧
        decision.outcome.isAdmitting = true ∧ decision.idempotentReplay = false := by
  unfold grantsFresh
  obtain ⟨status | decision, core'⟩ := core.admitLocked request claim
  · simp [Except.toOption]
  · simp [Except.toOption, Prod.ext_iff]

/-! ### The load of a fresh admission -/

theorem finishAdmission_ledger {amounts : List (ResourceId × Rate)}
    (h : (core.finishAdmission decision request amounts).1 = .ok ()) :
    core.ledger.reserve decision.decision decision.demand core.epoch
        decision.boundCapacityGeneration decision.selectedPath amounts =
      (.ok (), (core.finishAdmission decision request amounts).2.ledger) := by
  generalize hcall : core.finishAdmission decision request amounts = outcome at h ⊢
  cases finishAdmission_effect hcall with
  | unprepared | unreserved | uncommitted => cases h
  | committed hprepare hreserve hcommit =>
    rw [compactIfNeededLocked_snd]
    exact hreserve

theorem reserve_of_admitLocked (hverdict : core.verdict request claim = .grant grant)
    (h : core.admitLocked request claim = (.ok decision, core')) :
    core.ledger.reserve decision.decision decision.demand core.epoch
        decision.boundCapacityGeneration decision.selectedPath
        (grant.targets.map fun resource => (resource, grant.granted)) =
      (.ok (), core'.ledger) := by
  rw [admitLocked_of_grant hverdict] at h
  obtain ⟨hok, rfl⟩ := answer_fst_eq_ok_iff.mp (congrArg Prod.fst h)
  have hcore : _ = core' := congrArg Prod.snd h
  rw [answer_snd] at hcore
  rw [← hcore]
  exact finishAdmission_ledger hok

theorem held_of_admitLocked (hverdict : core.verdict request claim = .grant grant)
    (h : core.admitLocked request claim = (.ok decision, core')) :
    core'.ledger.held decision.decision = AdmittedLoadLedger.newEntries decision.decision
      decision.demand core.epoch decision.boundCapacityGeneration decision.selectedPath
      (grant.targets.map fun resource => (resource, grant.granted)) := by
  obtain ⟨-, pathTotals, -, hledger⟩ := AdmittedLoadLedger.reserve_eq_ok_iff.mp
    (reserve_of_admitLocked hverdict h)
  rw [hledger]
  exact AdmittedLoadLedger.held_withReservation _ _ _ pathTotals

end EngineCore

end AdmissionFabric
