import AdmissionFabric.Engine.LedgerRuns
import AdmissionFabric.Engine.VerdictSpec

/-!
# Replays of dead grants

A decision is evidence, and whoever holds one has to revalidate it before trusting it: a fresh
admission says so, and a replay from the cache repeats it. A replay that is rebuilt from the
decision history says so only if the record is marked invalidated. The record of a grant that was
revoked is retained with its admitting outcome, so the repeated request is answered by an
admission that asks for nothing and has no load behind it.
-/

namespace AdmissionFabric

/-- The ledger holds the decision, with one rate on each of its resources. -/
def AdmittedLoadLedger.Backs (ledger : AdmittedLoadLedger) (d : AdmissionDecisionId)
    (rate : Rate) : Prop :=
  ledger.holds d = true ∧ ∀ entry ∈ ledger.held d, entry.amount = rate

instance (ledger : AdmittedLoadLedger) (d : AdmissionDecisionId) (rate : Rate) :
    Decidable (ledger.Backs d rate) :=
  inferInstanceAs (Decidable (_ ∧ _))

namespace EngineCore

variable {core core' : EngineCore} {request : AdmissionRequest} {claim : ClaimContext}
  {decision : AdmissionDecision}

/-! ### The cache -/

/-- Every remembered admission asks for revalidation. -/
def CacheFlagged (core : EngineCore) : Prop :=
  ∀ (d : AdmissionDecisionId) decision, core.decisionCache[d]? = some decision →
    decision.outcome.isAdmitting = true → decision.revalidationRequired = true

theorem CacheFlagged.of_cache (h : core.CacheFlagged)
    (hcache : core'.decisionCache = core.decisionCache) : core'.CacheFlagged := by
  unfold CacheFlagged
  rw [hcache]
  exact h

theorem cacheFlagged_of_empty (h : core.decisionCache = ∅) : core.CacheFlagged := by
  intro d decision hget
  simp [h] at hget

theorem CacheFlagged.remember (h : core.CacheFlagged)
    (hdecision : decision.outcome.isAdmitting = true → decision.revalidationRequired = true)
    (hcache : core'.decisionCache = EngineCore.remember core.decisionCache decision) :
    core'.CacheFlagged := by
  intro d cached hget hadmitting
  rw [hcache] at hget
  rcases getElem?_remember hget with ⟨-, rfl⟩ | hold
  · exact hdecision hadmitting
  · exact h d cached hold hadmitting

theorem CacheFlagged.refuse (h : core.CacheFlagged) {reason : Refusal} (hrefuses : reason.Refuses)
    (evidence : Option Evidence) (recordAttempt : Bool) :
    (core.refuse request claim reason evidence recordAttempt).2.CacheFlagged := by
  rw [EngineCore.refuse, answer_snd]
  have houtcome := core.outcome_refusal request claim reason evidence
  generalize core.refusal request claim reason evidence = decision at houtcome ⊢
  generalize hcall : core.consumeIdentity.finishRefusal _ _ _ = outcome
  have hadmitting : decision.outcome.isAdmitting = false := houtcome ▸ hrefuses
  cases finishRefusal_effect hcall with
  | unwritten _ => exact h
  | settled _ =>
    refine h.remember (fun hgood => ?_) rfl
    rw [hadmitting] at hgood
    cases hgood

theorem CacheFlagged.grant (h : core.CacheFlagged) (grant : Grant) :
    (core.consumeIdentity.finishAdmission (core.admission request claim grant) request
      (amountsOf grant)).2.CacheFlagged := by
  have hflag : (core.admission request claim grant).revalidationRequired = true := rfl
  generalize hcall : core.consumeIdentity.finishAdmission _ _ _ = outcome
  cases finishAdmission_effect hcall with
  | unprepared _ | unreserved _ _ | uncommitted _ _ _ => exact h
  | committed _ _ _ =>
    rw [compactIfNeededLocked_snd]
    exact h.remember (fun _ => hflag) rfl

theorem CacheFlagged.admitLocked (h : core.CacheFlagged) (request : AdmissionRequest)
    (claim : ClaimContext) : (core.admitLocked request claim).2.CacheFlagged := by
  unfold EngineCore.admitLocked
  cases hverdict : core.verdict request claim with
  | refuse reason evidence recordAttempt =>
    exact h.refuse (refuses_of_verdict.1 _ _ _ hverdict) evidence recordAttempt
  | retired reason =>
    have hcounted : core.countReplay.CacheFlagged := h
    exact hcounted.refuse (refuses_of_verdict.2 _ hverdict) none false
  | replay decision => exact h
  | grant grant =>
    simp only [answer_snd]
    exact h.grant grant

theorem housekeeping_cacheFlagged : Housekeeping (fun _ => True) CacheFlagged where
  release core d reason explanation _ h := by
    generalize hcall : core.releaseDecisionLocked d reason .revoked explanation = outcome
    cases releaseDecisionLocked_effect hcall with
    | unheld _ | unwritten _ _ | stuck _ _ _ | unmarked _ _ _ _ => exact h
    | released _ _ _ _ =>
      intro d' decision hget
      refine h d' decision ?_
      change (core.decisionCache.erase d)[d']? = some decision at hget
      rw [Std.ExtTreeMap.getElem?_erase] at hget
      split at hget
      · cases hget
      · exact hget
  mark _ _ _ _ _ h := h
  note _ _ _ h := h
  clearFlags _ h := h
  steady _ _ hstores _ h := h.of_cache (congrArg Stores.decisionCache hstores)

theorem decisionCache_boot (config : EngineConfig) (journal : Journal) :
    (boot config journal).2.decisionCache = ∅ := by
  have heffect := boot_effect config journal
  generalize (boot config journal).2 = core, (boot config journal).1.status = status at heffect ⊢
  cases heffect with
  | unopened _ | unread _ => rfl
  | read _ hrecover =>
    cases hrecover with
    | refused _ | unrestored _ _ => rfl
    | restored _ _ hfinish => cases hfinish <;> rfl

theorem CacheFlagged.follow (h : core.CacheFlagged) (event : Event) :
    (core.follow event).CacheFlagged := by
  match event with
  | .restart config surviving disk =>
    change (core.restart config surviving disk).2.CacheFlagged
    unfold restart
    split
    · exact cacheFlagged_of_empty rfl
    · exact cacheFlagged_of_empty (decisionCache_boot config _)
  | .call ⟨operation, disk⟩ =>
    have hdisk : (core.onDisk disk).CacheFlagged := h
    exact housekeeping_cacheFlagged.perform
      (fun _ _ hstores h => h.of_cache (congrArg Stores.decisionCache hstores)) hdisk
      (fun _ _ => trivial) (fun request claim _ => hdisk.admitLocked request claim)
      fun _ => hdisk.of_cache (by rw [compactLocked_snd])

theorem cacheFlagged_of_reachable {guard : EngineCore → Event → Prop}
    (h : TransitionSystem.Reachable Started follow guard core) : core.CacheFlagged := by
  refine h.invariant (I := CacheFlagged) (fun core hstarted => ?_)
    fun _ event hflagged _ => hflagged.follow event
  obtain ⟨config, rfl | ⟨journal, rfl⟩⟩ := hstarted
  · exact cacheFlagged_of_empty rfl
  · exact cacheFlagged_of_empty (decisionCache_boot config journal)

/-! ### Replays -/

/-- The request repeats an attempt whose answer has left the cache, and the record from which the
answer is rebuilt admits at a rate that the ledger does not hold, without being marked
invalidated. -/
def ReplaysDead (core : EngineCore) (request : AdmissionRequest) (claim : ClaimContext) : Prop :=
  request.validate = .ok () ∧ core.checkFence claim = .ok () ∧
    (core.attempts.classify (probe request)).disposition = .replay ∧
    core.decisionCache[(core.attempts.classify (probe request)).existing.decision]? = none ∧
    ∃ record, core.history.find (core.attempts.classify (probe request)).existing.decision =
        some record ∧
      record.outcome.isAdmitting = true ∧ record.state ≠ .invalidated ∧
      ¬ core.ledger.Backs record.decision record.granted

theorem flagged_or_replayOf (hcache : core.CacheFlagged)
    (h : core.admitLocked request claim = (.ok decision, core'))
    (hadmitting : decision.outcome.isAdmitting = true) :
    decision.revalidationRequired = true ∨
      core' = core.countReplay ∧ core.verdict request claim = .replay decision ∧
        core.decisionCache[(core.attempts.classify (probe request)).existing.decision]? = none ∧
        ∃ record, core.history.find (core.attempts.classify (probe request)).existing.decision =
            some record ∧ record.state ≠ .invalidated ∧
          decision = core.replayOf request record := by
  rcases admitLocked_admitting h hadmitting with ⟨grant, -, rfl⟩ | ⟨hverdict, rfl⟩
  · exact Or.inl rfl
  · rcases replayOf_of_verdict hverdict with ⟨d, cached, hget, rfl⟩ | ⟨hnone, record, hfind, rfl⟩
    · exact Or.inl (hcache d cached hget hadmitting)
    · by_cases hstate : record.state = .invalidated
      · exact Or.inl (decide_eq_true hstate)
      · exact Or.inr ⟨rfl, hverdict, hnone, record, hfind, hstate, rfl⟩

/-- In every state that is reached, every admitting answer has its load behind it or asks for
revalidation, except for the replays of dead grants. -/
theorem backed_or_flagged_iff
    (hreach : TransitionSystem.Reachable Started follow (fun _ _ => True) core)
    (request : AdmissionRequest) (claim : ClaimContext) (disk : List DiskOutcome) :
    (∀ decision core', (core.onDisk disk).admitLocked request claim = (.ok decision, core') →
      decision.outcome.isAdmitting = true →
        core'.ledger.Backs decision.decision decision.granted ∨
          decision.revalidationRequired = true) ↔
      ¬ core.ReplaysDead request claim := by
  constructor
  · rintro hgood ⟨hvalid, hfence, hclass, hnone, record, hfind, hadmitting, hstate, hdead⟩
    have hverdict : (core.onDisk disk).verdict request claim =
        .replay (core.replayOf request record) := by
      rw [verdict_onDisk]
      simp only [verdict, hvalid, hfence, hclass, replayVerdict, hnone, hfind]
    have hanswer : (core.onDisk disk).admitLocked request claim =
        (.ok (core.replayOf request record), (core.onDisk disk).countReplay) := by
      simp only [EngineCore.admitLocked, hverdict]
    rcases hgood _ _ hanswer hadmitting with hbacks | hflag
    · exact hdead hbacks
    · exact hstate (of_decide_eq_true hflag)
  · intro hlive decision core' hanswer hadmitting
    have hcache : (core.onDisk disk).CacheFlagged :=
      (cacheFlagged_of_reachable hreach).of_cache rfl
    rcases flagged_or_replayOf hcache hanswer hadmitting with
      hflag | ⟨rfl, hverdict, hnone, record, hfind, hstate, rfl⟩
    · exact Or.inr hflag
    · refine Or.inl (by_contra fun hdead => hlive ?_)
      obtain ⟨hvalid, hfence, hclass, -⟩ := replayVerdict_of_verdict hverdict
      exact ⟨hvalid, hfence, hclass, hnone, record, hfind, hadmitting, hstate, hdead⟩

section Examples

open SmallFabric

/-- The repeated request. -/
def repeated : AdmissionRequest := SmallFabric.request 1 ⟨1, 20, 20⟩ [1]

/-- An engine over a new journal that has granted a request. -/
def standingCore : EngineCore :=
  (boot { epoch := 0 } {}).2.performAll
    (announce [known 1 1 100] ++ [.admitRequest repeated {}])

theorem reachable_standingCore :
    TransitionSystem.Reachable Started follow (fun _ _ => True) standingCore :=
  reachable_performAll (.init ⟨{ epoch := 0 }, Or.inr ⟨{}, rfl⟩⟩) _

/-- The process that takes over after a crash. -/
def takenOver : EngineCore := standingCore.follow (.restart { epoch := 0 } 1000 [])

/-- The new process has no answers left, but it has restored the load behind the record. -/
theorem backed_takenOver :
    takenOver.decisionCache.isEmpty = true ∧ takenOver.ledger.holds 1 = true ∧
    ∀ decision core', (takenOver.onDisk []).admitLocked repeated {} = (.ok decision, core') →
      decision.outcome.isAdmitting = true →
        core'.ledger.Backs decision.decision decision.granted ∨
          decision.revalidationRequired = true := by
  have hrecords : (takenOver.history.find (takenOver.attempts.classify
      (probe repeated)).existing.decision).all
        (fun record => takenOver.ledger.Backs record.decision record.granted) = true := by
    decide +kernel
  have hreach : TransitionSystem.Reachable Started follow (fun _ _ => True) takenOver := by
    rw [takenOver]
    exact reachable_standingCore.step _ trivial
  refine ⟨by decide +kernel, by decide +kernel, (backed_or_flagged_iff hreach _ _ _).mpr ?_⟩
  rintro ⟨-, -, -, -, record, hfind, -, -, hdead⟩
  rw [hfind, Option.all_some, decide_eq_true_eq] at hrecords
  exact hdead hrecords

/-- After its revocation the grant is presented as one that stands: the answer admits and asks for
nothing, and there is no load behind it. -/
theorem dead_replay :
    ∃ core decision core', TransitionSystem.Reachable Started follow (fun _ _ => True) core ∧
      (core.onDisk []).admitLocked repeated {} = (.ok decision, core') ∧
      decision.outcome = .admitted ∧ decision.revalidationRequired = false ∧
      core'.ledger.holds decision.decision = false := by
  have hreach := reachable_performAll reachable_standingCore [.revoke 1 .operatorRequest {}]
  generalize hrevoked : standingCore.performAll [.revoke 1 .operatorRequest {}] = core at hreach
  have hanswer : ((core.onDisk []).admitLocked repeated {}).1.toOption.any (fun decision =>
      decision.outcome = .admitted ∧ decision.revalidationRequired = false ∧
        ((core.onDisk []).admitLocked repeated {}).2.ledger.holds decision.decision = false) =
      true := by
    subst hrevoked
    decide +kernel
  rcases hcall : (core.onDisk []).admitLocked repeated {} with ⟨status | decision, core'⟩
  · simp [hcall, Except.toOption] at hanswer
  · refine ⟨core, decision, core', hreach, hcall, ?_⟩
    simpa [hcall, Except.toOption] using hanswer

end Examples

end EngineCore

end AdmissionFabric
