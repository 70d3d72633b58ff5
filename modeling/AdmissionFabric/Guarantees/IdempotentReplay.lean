import AdmissionFabric.Engine.Course

/-!
# Idempotent replay

Once a request was answered with a recorded decision, every repetition of it is answered with the
same decision, whatever else happens in the meantime, and nothing is evaluated or admitted again.
The answer is taken from the decision cache, or from the history when a release or the bound of the
cache has removed it from there. When both have given the decision up, a repetition is refused as
conflicting, but still not evaluated.

Reuse of the identities of the request for other content is refused and leaves the recorded attempt
alone. The refusal is a decision of its own, though. Its record takes up room in the history, where
it can supplant the record that the original request was answered from.
-/

namespace AdmissionFabric

namespace EngineCore

open SmallFabric AttemptRegistry
open TransitionSystem (Reachable)

variable {reason : Refusal} {core₁ : EngineCore} {core core' : EngineCore}
    {request other : AdmissionRequest} {claim : ClaimContext} {decision : AdmissionDecision}

/-! ### What an admission does to the stores -/

/-- The attempt that an admission records for a request. -/
structure RecordedAs (core : EngineCore) (request : AdmissionRequest) (candidate : AttemptRecord) :
    Prop where
  key : candidate.key = (probe request).key
  requestId : candidate.request = request.request
  fingerprint : candidate.fingerprint = request.fingerprint
  decision : candidate.decision = core.nextDecisionSequence

theorem recordedAs_attemptOf (core₁ : EngineCore) {tick : UInt64}
    (hdescribes : Describes tick request decision)
    (hdecision : decision.decision = core.nextDecisionSequence) :
    core.RecordedAs request (core₁.attemptOf request decision) where
  key := by simp only [AttemptRecord.key, attemptOf, probe]
  requestId := rfl
  fingerprint := hdescribes.fingerprint
  decision := hdecision

/-- Whether the verdict on a request is one whose attempt is recorded. -/
def Records (core : EngineCore) (request : AdmissionRequest) (claim : ClaimContext) : Prop :=
  (∃ reason evidence, core.verdict request claim = .refuse reason evidence true) ∨
    ∃ grant, core.verdict request claim = .grant grant

/-- What an admission leaves of the registry and of the cache. -/
inductive AdmissionStores (core : EngineCore) (request : AdmissionRequest) (claim : ClaimContext) :
    EngineCore → Prop
  | kept {core' : EngineCore} (hattempts : core'.attempts = core.attempts)
      (hcache : core'.decisionCache = core.decisionCache) : AdmissionStores core request claim core'
  | unrecorded {core' : EngineCore} {decision : AdmissionDecision}
      (hdecision : decision.decision = core.nextDecisionSequence)
      (hattempts : core'.attempts = core.attempts)
      (hcache : core'.decisionCache = remember core.decisionCache decision) :
      AdmissionStores core request claim core'
  | recorded {core' : EngineCore} {decision : AdmissionDecision} {candidate : AttemptRecord}
      (hrecords : core.Records request claim) (hcandidate : core.RecordedAs request candidate)
      (hdecision : decision.decision = core.nextDecisionSequence)
      (hattempts : core'.attempts = core.attempts.record candidate)
      (hcache : core'.decisionCache = remember core.decisionCache decision) :
      AdmissionStores core request claim core'

theorem admissionStores_refuse {evidence : Option Evidence} {recordAttempt : Bool}
    (hattempts : core₁.attempts = core.attempts)
    (hcache : core₁.decisionCache = core.decisionCache)
    (hnext : core₁.nextDecisionSequence = core.nextDecisionSequence)
    (hrecords : recordAttempt = true → core.Records request claim) :
    AdmissionStores core request claim
      (core₁.refuse request claim reason evidence recordAttempt).2 := by
  rw [refuse, answer_snd]
  have hdescribes := core₁.describes_refusal request claim reason evidence
  have hdecision := core₁.decision_refusal request claim reason evidence
  generalize core₁.refusal request claim reason evidence = decision at hdescribes hdecision ⊢
  generalize hcall : core₁.consumeIdentity.finishRefusal decision request recordAttempt = outcome
  have hcached : remember core₁.decisionCache decision = remember core.decisionCache decision := by
    rw [hcache]
  cases finishRefusal_effect hcall with
  | unwritten _ => exact .kept hattempts hcache
  | settled _ =>
    cases recordAttempt with
    | false => exact .unrecorded (hdecision.trans hnext) hattempts hcached
    | true =>
      have hcandidate : core.RecordedAs request
          (core₁.consumeIdentity.attemptOf request decision) :=
        recordedAs_attemptOf _ hdescribes (hdecision.trans hnext)
      exact .recorded (hrecords rfl) hcandidate (hdecision.trans hnext)
        (congrArg (AttemptRegistry.record · _) hattempts) hcached

theorem admissionStores_admitLocked (core : EngineCore) (request : AdmissionRequest)
    (claim : ClaimContext) :
    AdmissionStores core request claim (core.admitLocked request claim).2 := by
  unfold admitLocked
  cases hverdict : core.verdict request claim with
  | refuse reason evidence recordAttempt =>
    refine admissionStores_refuse rfl rfl rfl fun hrecord => Or.inl ⟨reason, evidence, ?_⟩
    rw [← hrecord]
    exact hverdict
  | retired reason => exact admissionStores_refuse rfl rfl rfl (by rintro ⟨⟩)
  | replay decision => exact .kept rfl rfl
  | grant grant =>
    rw [answer_snd]
    have hdescribes := core.describes_admission request claim grant
    have hdecision := core.decision_admission request claim grant
    generalize core.admission request claim grant = decision at hdescribes hdecision ⊢
    change AdmissionStores core request claim
      (core.consumeIdentity.finishAdmission decision request (amountsOf grant)).2
    generalize hcall : core.consumeIdentity.finishAdmission _ _ _ = outcome
    cases finishAdmission_effect hcall with
    | unprepared _ | unreserved _ _ | uncommitted _ _ _ => exact .kept rfl rfl
    | committed _ _ _ =>
      rw [compactIfNeededLocked_snd]
      exact .recorded (Or.inr ⟨grant, hverdict⟩) (recordedAs_attemptOf _ hdescribes hdecision)
        hdecision rfl rfl

theorem new_of_records (hfence : core.checkFence claim = .ok ())
    (h : core.Records request claim) :
    (core.attempts.classify (probe request)).disposition = .new := by
  have hverdict : ∀ {verdict : Verdict}, core.verdict request claim = verdict →
      (∃ reason evidence, verdict = .refuse reason evidence true) ∨
        (∃ grant, verdict = .grant grant) →
      (core.attempts.classify (probe request)).disposition = .new := by
    intro verdict hverdict hrecords
    unfold EngineCore.verdict at hverdict
    split at hverdict
    · subst hverdict
      simp at hrecords
    · simp only [hfence] at hverdict
      split at hverdict
      · unfold replayVerdict at hverdict
        subst hverdict
        split at hrecords
        · simp at hrecords
        · split at hrecords <;> simp at hrecords
      · subst hverdict
        simp at hrecords
      · assumption
  exact hverdict rfl h

/-! ### What the stores have of a decision -/

/-- A decision with the identity, the outcome and the rate of another. -/
structure Repeats (decision answer : AdmissionDecision) : Prop where
  decision_eq : answer.decision = decision.decision
  outcome_eq : answer.outcome = decision.outcome
  granted_eq : answer.granted = decision.granted

/-- The registry has the attempt of a request under a decision, and what is left of the decision in
the cache and in the history states its outcome and its rate. -/
structure Stands (request : AdmissionRequest) (decision : AdmissionDecision) (core : EngineCore) :
    Prop where
  attempt : ∃ existing, core.attempts.attempts[(probe request).key]? = some existing ∧
    existing.fingerprint = request.fingerprint ∧ existing.decision = decision.decision
  requestId : core.attempts.requestFingerprints[request.request]? = some request.fingerprint
  behind : decision.decision < core.nextDecisionSequence
  cached : ∀ cached, core.decisionCache[decision.decision]? = some cached →
    Repeats decision cached
  filed : ∀ record, core.history.find decision.decision = some record →
    record.decision = decision.decision ∧ record.outcome = decision.outcome ∧
      record.granted = decision.granted

/-- The part of it that does not depend on the history. -/
structure Registered (request : AdmissionRequest) (decision : AdmissionDecision)
    (core : EngineCore) : Prop where
  attempt : ∃ existing, core.attempts.attempts[(probe request).key]? = some existing ∧
    existing.fingerprint = request.fingerprint ∧ existing.decision = decision.decision
  requestId : core.attempts.requestFingerprints[request.request]? = some request.fingerprint
  cached : ∀ cached, core.decisionCache[decision.decision]? = some cached →
    Repeats decision cached

theorem Registered.mono (h : core.Registered request decision)
    (hattempts : core'.attempts = core.attempts)
    (hcache : ∀ cached, core'.decisionCache[decision.decision]? = some cached →
      core.decisionCache[decision.decision]? = some cached) :
    core'.Registered request decision where
  attempt := hattempts ▸ h.attempt
  requestId := hattempts ▸ h.requestId
  cached cached hcached := h.cached cached (hcache cached hcached)

theorem getElem?_remember_of_ne {cache : Std.ExtTreeMap AdmissionDecisionId AdmissionDecision}
    {later cached : AdmissionDecision} {d : AdmissionDecisionId} (hne : d ≠ later.decision)
    (h : (remember cache later)[d]? = some cached) : cache[d]? = some cached := by
  unfold remember at h
  rw [Std.ExtTreeMap.getElem?_insert, if_neg (by simpa using Ne.symm hne)] at h
  split at h
  · split at h
    · rw [Std.ExtTreeMap.getElem?_erase] at h
      split at h
      · cases h
      · exact h
    · exact h
  · exact h

theorem ofStores_registered (request : AdmissionRequest) (decision : AdmissionDecision) :
    OfStores (Registered request decision) := by
  intro core core' hstores h
  have hcache : core'.decisionCache = core.decisionCache := congrArg Stores.decisionCache hstores
  exact h.mono (congrArg Stores.attempts hstores) fun _ hcached => hcache ▸ hcached

theorem housekeeping_registered (request : AdmissionRequest) (decision : AdmissionDecision) :
    Housekeeping (fun _ => True) (Registered request decision) where
  release core d reason explanation _ h := by
    generalize hcall : core.releaseDecisionLocked d reason .revoked explanation = outcome
    cases releaseDecisionLocked_effect hcall with
    | unheld _ => exact h
    | unwritten _ _ | stuck _ _ _ | unmarked _ _ _ _ => exact h.mono rfl fun _ => id
    | released _ _ _ _ =>
      refine h.mono rfl fun cached hcached => ?_
      change (core.decisionCache.erase d)[decision.decision]? = some cached at hcached
      rw [Std.ExtTreeMap.getElem?_erase] at hcached
      split at hcached
      · cases hcached
      · exact hcached
  mark core d f _ _ h := h.mono rfl fun _ => id
  note core record _ h := h.mono rfl fun _ => id
  clearFlags core h := h.mono rfl fun _ => id
  steady core core' hstores _ h := ofStores_registered request decision core core' hstores h

theorem Registered.admitLocked (h : core.Registered request decision)
    (hbehind : decision.decision < core.nextDecisionSequence)
    (hfence : core.checkFence claim = .ok ())
    (hroom : core.attempts.attempts.size < core.attempts.capacity) :
    (core.admitLocked other claim).2.Registered request decision := by
  have hstores := core.admissionStores_admitLocked other claim
  cases hstores with
  | kept hattempts hcache => exact h.mono hattempts fun _ hcached => hcache ▸ hcached
  | unrecorded hdecision hattempts hcache =>
    refine h.mono hattempts fun _ hcached => ?_
    rw [hcache] at hcached
    exact getElem?_remember_of_ne (hdecision ▸ Nat.ne_of_lt hbehind) hcached
  | recorded hrecords hcandidate hdecision hattempts hcache =>
    obtain ⟨existing, hget, hsame⟩ := h.attempt
    have hnone := getElem?_of_new (new_of_records hfence hrecords)
    refine ⟨⟨existing, ?_, hsame⟩, ?_, fun cached hcached => h.cached cached ?_⟩
    · rw [hattempts, getElem?_attempts_record (Or.inr hroom), hcandidate.key,
        if_neg, hget]
      intro heq
      rw [heq, hget] at hnone
      cases hnone
    · rw [hattempts, getElem?_requestFingerprints_record, h.requestId,
        Option.getD_some, ite_self]
    · rw [hcache] at hcached
      exact getElem?_remember_of_ne (hdecision ▸ Nat.ne_of_lt hbehind) hcached

/-! ### Runs -/

/-- Requests are submitted by callers that are not fenced, while there is room for attempts. -/
def Unfenced (core : EngineCore) (call : Call) : Prop :=
  ∀ request claim, call.operation = .admitRequest request claim →
    core.checkFence claim = .ok () ∧ core.attempts.attempts.size < core.attempts.capacity

theorem Stands.after (h : core.Stands request decision) (hpos : 0 < core.nextDecisionSequence)
    {call : Call} (hguard : core.Unfenced call) : (core.after call).Stands request decision := by
  have hregistered : (core.onDisk call.disk).Registered request decision :=
    ⟨h.attempt, h.requestId, h.cached⟩
  have hafter : (core.after call).Registered request decision := by
    refine (housekeeping_registered request decision).perform
      (ofStores_registered request decision) hregistered (fun _ _ => trivial) ?_ ?_
    · intro other claim hoperation
      obtain ⟨hfence, hroom⟩ := hguard other claim hoperation
      exact hregistered.admitLocked h.behind hfence hroom
    · intro _
      rw [compactLocked_snd]
      exact hregistered.mono rfl fun _ => id
  have hpos' : 0 < (core.onDisk call.disk).nextDecisionSequence := hpos
  have hcourse : (core.onDisk call.disk).Course (core.after call) :=
    course_perform hpos' call.operation
  refine ⟨hafter.attempt, hafter.requestId, h.behind.trans_le hcourse.next_le, hafter.cached,
    fun record' hfind => ?_⟩
  rcases hcourse.recorded _ record' hfind with ⟨record, hold, hcopy, -⟩ | hissues
  · rw [hcopy]
    exact h.filed record hold
  · exact absurd hissues.fresh (Nat.not_le.mpr h.behind)

/-- A request that meets its contract, of a caller that is not fenced, whose identities are new. -/
structure Novel (core : EngineCore) (request : AdmissionRequest) (claim : ClaimContext) :
    Prop where
  valid : request.validate = .ok ()
  fence : core.checkFence claim = .ok ()
  new : (core.attempts.classify (probe request)).disposition = .new

theorem stands_settle {core : EngineCore} {record : DecisionRecord} {candidate : AttemptRecord}
    (hkey : candidate.key = (probe request).key)
    (hrequest : candidate.request = request.request)
    (hfingerprint : candidate.fingerprint = request.fingerprint)
    (hdecision : candidate.decision = decision.decision) (hknown : request.request ≠ 0)
    (hfirst : ∀ fp, core.attempts.requestFingerprints[request.request]? = some fp →
      fp = request.fingerprint)
    (hne : decision.decision ≠ 0) (hbehind : decision.decision < core.nextDecisionSequence)
    (hid : record.decision = decision.decision) (houtcome : record.outcome = decision.outcome)
    (hgranted : record.granted = decision.granted) :
    (core.settle decision record (some candidate)).Stands request decision where
  attempt := by
    refine ⟨candidate, ?_, hfingerprint, hdecision⟩
    change (core.attempts.record candidate).attempts[(probe request).key]? = some candidate
    rw [← hkey]
    simp only [AttemptRegistry.record, Std.ExtTreeMap.getElem?_insert_self]
  requestId := by
    change (core.attempts.record candidate).requestFingerprints[request.request]? = _
    rw [getElem?_requestFingerprints_record, if_pos ⟨hrequest, hknown⟩,
      hfingerprint]
    cases hget : core.attempts.requestFingerprints[request.request]? with
    | none => rw [Option.getD_none]
    | some fp => rw [hfirst fp hget, Option.getD_some]
  behind := hbehind
  cached cached hcached := by
    change (remember core.decisionCache decision)[decision.decision]? = some cached at hcached
    rw [remember, Std.ExtTreeMap.getElem?_insert_self] at hcached
    obtain rfl := Option.some.inj hcached
    exact ⟨rfl, rfl, rfl⟩
  filed found hfind := by
    have hretires := DecisionHistory.trimHistory_retires (core.history.insert record) core.ledger
    have hinsert := hretires.find_of_find _ _ hfind
    rw [DecisionHistory.find_insert (hid ▸ hne), if_pos hid] at hinsert
    obtain rfl := Option.some.inj hinsert
    exact ⟨hid, houtcome, hgranted⟩

theorem Stands.withJournal (h : core.Stands request decision) (journal : Option Journal) :
    ({ core with journal } : EngineCore).Stands request decision :=
  ⟨h.attempt, h.requestId, h.behind, h.cached, h.filed⟩

theorem Novel.stands (h : core.Novel request claim) (hpos : 0 < core.nextDecisionSequence)
    (hanswer : (core.admitLocked request claim).1 = .ok decision) :
    (core.admitLocked request claim).2.Stands request decision := by
  have hknown := (AdmissionRequest.identities_of_validate h.valid).1
  have hfirst : ∀ fp, core.attempts.requestFingerprints[request.request]? = some fp →
      fp = request.fingerprint := fun fp hget => by
    simpa only [probe] using fingerprint_of_new h.new hknown hget
  cases hevaluate : core.toAuthority.evaluate core.ledger request with
  | error refused =>
    obtain ⟨reason, evidence⟩ := refused
    have hverdict : core.verdict request claim = .refuse reason evidence true := by
      simp only [verdict, h.valid, h.fence, h.new, hevaluate]
    rw [admitLocked, hverdict] at hanswer ⊢
    simp only at hanswer ⊢
    have hdescribes := core.describes_refusal request claim reason evidence
    have hdecision := core.decision_refusal request claim reason evidence
    rw [refuse, answer_fst_eq_ok_iff] at hanswer
    rw [refuse, answer_snd]
    obtain ⟨hfinished, rfl⟩ := hanswer
    generalize core.refusal request claim reason evidence = decision
      at hdescribes hdecision hfinished ⊢
    generalize hcall : core.consumeIdentity.finishRefusal decision request true = outcome
      at hfinished ⊢
    cases finishRefusal_effect hcall with
    | unwritten _ => cases hfinished
    | settled _ =>
      have hcandidate := recordedAs_attemptOf core.consumeIdentity hdescribes hdecision
      exact stands_settle hcandidate.key hcandidate.requestId hcandidate.fingerprint rfl hknown
        hfirst (hdecision ▸ Nat.ne_of_gt hpos)
        (hdecision ▸ Nat.lt_succ_self _) rfl rfl rfl
  | ok grant =>
    have hverdict : core.verdict request claim = .grant grant := by
      simp only [verdict, h.valid, h.fence, h.new, hevaluate]
    rw [admitLocked_of_grant hverdict] at hanswer ⊢
    have hdescribes := core.describes_admission request claim grant
    have hdecision := core.decision_admission request claim grant
    rw [answer_fst_eq_ok_iff] at hanswer
    rw [answer_snd]
    obtain ⟨hfinished, rfl⟩ := hanswer
    generalize core.admission request claim grant = decision at hdescribes hdecision hfinished ⊢
    generalize hcall : core.consumeIdentity.finishAdmission decision request _ = outcome
      at hfinished ⊢
    cases finishAdmission_effect hcall with
    | unprepared _ | unreserved _ _ | uncommitted _ _ _ => cases hfinished
    | committed _ _ _ =>
      rw [compactIfNeededLocked_snd]
      have hcandidate := recordedAs_attemptOf core.consumeIdentity hdescribes hdecision
      refine Stands.withJournal ?_ _
      exact stands_settle hcandidate.key hcandidate.requestId hcandidate.fingerprint rfl hknown
        hfirst (hdecision ▸ Nat.ne_of_gt hpos) (hdecision ▸ Nat.lt_succ_self _) rfl rfl rfl

/-! ### Answers -/

/-- No durable write of a refusal fails. -/
def CanRefuse (core : EngineCore) : Prop :=
  ∀ record, (writeJournal core.journal core.journalReady (.admissionRefused record)).1 = .ok ()

/-- A call is answered as conflicting, as far as the refusal can be written. -/
structure AnswersConflict (core : EngineCore) (request : AdmissionRequest)
    (claim : ClaimContext) : Prop where
  answer : core.CanRefuse → ∃ answer, (core.admitLocked request claim).1 = .ok answer ∧
    answer.outcome = .conflictingInput
  ledger_eq : (core.admitLocked request claim).2.ledger = core.ledger
  attempts_eq : (core.admitLocked request claim).2.attempts = core.attempts

/-- The answer to a repetition of the request of a decision: the decision, or a conflict if nothing
is left of it. -/
inductive AnswersRepetition (core : EngineCore) (decision : AdmissionDecision)
    (repeated : AdmissionRequest) (claim : ClaimContext) : Prop
  | replayed {answer : AdmissionDecision} (hverdict : core.verdict repeated claim = .replay answer)
      (hanswer : (core.admitLocked repeated claim).1 = .ok answer)
      (hrepeats : Repeats decision answer) (hreplay : answer.idempotentReplay = true)
      (hledger : (core.admitLocked repeated claim).2.ledger = core.ledger) :
      AnswersRepetition core decision repeated claim
  | retired {reason : Refusal} (hverdict : core.verdict repeated claim = .retired reason)
      (hcache : core.decisionCache[decision.decision]? = none)
      (hhistory : core.history.find decision.decision = none)
      (hconflict : core.AnswersConflict repeated claim) :
      AnswersRepetition core decision repeated claim

/-- Whether a request reuses identities of another one for different content. A request whose own
attempt is recorded with its fingerprint is no reuse but a repetition. -/
def Reuses (core : EngineCore) (request other : AdmissionRequest) : Prop :=
  other.fingerprint ≠ request.fingerprint ∧
    (other.demand = request.demand ∧ other.attempt = request.attempt ∨
      other.request = request.request ∧
        (core.attempts.classify (probe other)).disposition ≠ .replay)

theorem answersConflict_refuse
    (hcall : core.admitLocked request claim = core₁.refuse request claim reason none false)
    (houtcome : reason.outcome = .conflictingInput) (hjournal : core₁.journal = core.journal)
    (hready : core₁.journalReady = core.journalReady) (hledger : core₁.ledger = core.ledger)
    (hattempts : core₁.attempts = core.attempts) : core.AnswersConflict request claim := by
  have hanswered := core₁.outcome_refusal request claim reason none
  rw [refuse] at hcall
  generalize core₁.refusal request claim reason none = decision at hcall hanswered
  generalize hfinish : core₁.consumeIdentity.finishRefusal _ _ _ = outcome at hcall
  have hsnd : (core.admitLocked request claim).2 = outcome.2 := by rw [hcall, answer_snd]
  refine ⟨fun hwrites => ⟨decision, ?_, hanswered.trans houtcome⟩, ?_, ?_⟩
  · rw [hcall, answer_fst_eq_ok_iff]
    refine ⟨?_, rfl⟩
    cases finishRefusal_effect hfinish with
    | unwritten hwrite =>
      have hok := hwrites (core₁.consumeIdentity.toRecord decision)
      rw [← hjournal, ← hready] at hok
      rw [show writeJournal core₁.journal core₁.journalReady _ = _ from hwrite] at hok
      cases hok
    | settled _ => rfl
  · rw [hsnd]
    cases finishRefusal_effect hfinish <;> exact hledger
  · rw [hsnd]
    cases finishRefusal_effect hfinish <;> exact hattempts

theorem key_probe_eq (hdemand : other.demand = request.demand)
    (hattempt : other.attempt = request.attempt) : (probe other).key = (probe request).key := by
  simp only [AttemptRecord.key, probe, hdemand, hattempt]

theorem fingerprint_probe (request : AdmissionRequest) :
    (probe request).fingerprint = request.fingerprint := by
  simp only [probe]

theorem Stands.answersRepetition (h : core.Stands request decision) {repeated : AdmissionRequest}
    (hvalid : repeated.validate = .ok ()) (hfence : core.checkFence claim = .ok ())
    (hdemand : repeated.demand = request.demand) (hattempt : repeated.attempt = request.attempt)
    (hfingerprint : repeated.fingerprint = request.fingerprint) :
    core.AnswersRepetition decision repeated claim := by
  obtain ⟨existing, hget, hsame, hdecision⟩ := h.attempt
  have hclassify : core.attempts.classify (probe repeated) =
      { disposition := .replay, existing } := by
    refine classify_of_same ?_ ?_
    · rw [key_probe_eq hdemand hattempt, hget]
    · rw [fingerprint_probe, hfingerprint, hsame]
  have hverdict : core.verdict repeated claim =
      core.replayVerdict repeated decision.decision := by
    simp only [verdict, hvalid, hfence, hclassify, hdecision]
  unfold replayVerdict at hverdict
  have hreplayed : ∀ answer, core.verdict repeated claim = .replay answer →
      Repeats decision answer → core.AnswersRepetition decision repeated claim := by
    intro answer hanswer hrepeats
    have hcall : core.admitLocked repeated claim = (.ok answer, core.countReplay) := by
      simp only [admitLocked, hanswer]
    exact .replayed hanswer (congrArg Prod.fst hcall) hrepeats
      (idempotentReplay_of_verdict hanswer) (by rw [hcall]; rfl)
  cases hcache : core.decisionCache[decision.decision]? with
  | some cached =>
    simp only [hcache] at hverdict
    obtain ⟨hid, houtcome, hgranted⟩ := h.cached cached hcache
    exact hreplayed _ hverdict ⟨hid, houtcome, hgranted⟩
  | none =>
    cases hhistory : core.history.find decision.decision with
    | some record =>
      simp only [hcache, hhistory] at hverdict
      obtain ⟨hid, houtcome, hgranted⟩ := h.filed record hhistory
      exact hreplayed _ hverdict ⟨hid, houtcome, hgranted⟩
    | none =>
      simp only [hcache, hhistory] at hverdict
      refine .retired hverdict hcache hhistory ?_
      have hcall : core.admitLocked repeated claim = core.countReplay.refuse repeated claim
          ⟨.conflictingInput, constraintOf .identityConflict "attempt" repeated.attempt.toNat
            "attempt was acknowledged but its decision record has been retired"⟩ none false := by
        simp only [admitLocked, hverdict]
      exact answersConflict_refuse hcall rfl rfl rfl rfl rfl

theorem Stands.answersConflict (h : core.Stands request decision)
    (hvalid : other.validate = .ok ()) (hfence : core.checkFence claim = .ok ())
    (hreuses : core.Reuses request other) : core.AnswersConflict other claim := by
  obtain ⟨existing, hget, hsame, hdecision⟩ := h.attempt
  obtain ⟨hother, hreused⟩ := hreuses
  have hconflict : (core.attempts.classify (probe other)).disposition = .conflict := by
    rcases hreused with ⟨hdemand, hattempt⟩ | ⟨hid, hreplay⟩
    · have hkey : core.attempts.attempts[(probe other).key]? = some existing := by
        rw [key_probe_eq hdemand hattempt, hget]
      have hdiffers : existing.fingerprint ≠ (probe other).fingerprint := by
        rw [fingerprint_probe, hsame]
        exact hother.symm
      rw [classify_of_other hkey hdiffers]
    · have hseen : core.attempts.requestFingerprints[(probe other).request]? =
          some request.fingerprint := by
        simp only [probe, hid, h.requestId]
      refine disposition_of_reused hreplay
        (AdmissionRequest.identities_of_validate hvalid).1 hseen ?_
      rw [fingerprint_probe]
      exact hother.symm
  have hcall : core.admitLocked other claim = core.refuse other claim
      (conflictRefusal other (core.attempts.classify (probe other))) none false := by
    simp only [admitLocked, verdict, hvalid, hfence, hconflict]
  exact answersConflict_refuse hcall rfl rfl rfl rfl rfl

theorem Started.next_pos (h : core.Started) : 0 < core.nextDecisionSequence := by
  obtain ⟨config, rfl | ⟨journal, rfl⟩⟩ := h
  · exact Nat.one_pos
  · have heffect := boot_effect config journal
    generalize (boot config journal).2 = core, (boot config journal).1.status = status
      at heffect ⊢
    cases heffect with
    | unopened _ | unread _ => exact Nat.one_pos
    | read _ hrecover =>
      cases hrecover with
      | refused _ | unrestored _ _ => exact Nat.one_pos
      | restored _ _ hfinish => cases hfinish <;> exact Nat.succ_pos _

theorem next_pos_of_reachable (h : Reachable Started EngineCore.after (fun _ _ => True) core) :
    0 < core.nextDecisionSequence := by
  refine h.invariant (I := fun core => 0 < core.nextDecisionSequence)
    (fun _ => Started.next_pos) fun core call hpos _ => ?_
  have hpos' : 0 < (core.onDisk call.disk).nextDecisionSequence := hpos
  exact hpos.trans_le (course_perform hpos' call.operation).next_le

/-- Idempotent replay. Once a new request was answered, then in every state that calls of callers
that are not fenced lead to, whatever happens to the disk: a repetition of the request is answered
with the same decision, or as conflicting if neither the cache nor the history has it any more; and
a reuse of its identities for other content is answered as conflicting and leaves its attempt
recorded. -/
theorem replays_of_reachable {first later : EngineCore} {disk : List DiskOutcome}
    (hfirst : Reachable Started EngineCore.after (fun _ _ => True) first)
    (hnovel : (first.onDisk disk).Novel request claim)
    (hanswer : ((first.onDisk disk).admitLocked request claim).1 = .ok decision)
    (hlater : Reachable (· = ((first.onDisk disk).admitLocked request claim).2) EngineCore.after
      Unfenced later) (disk' : List DiskOutcome) :
    (∀ repeated claim', repeated.validate = .ok () →
      (later.onDisk disk').checkFence claim' = .ok () → repeated.demand = request.demand →
      repeated.attempt = request.attempt → repeated.fingerprint = request.fingerprint →
      (later.onDisk disk').AnswersRepetition decision repeated claim') ∧
    ∀ other claim', other.validate = .ok () → (later.onDisk disk').checkFence claim' = .ok () →
      (later.onDisk disk').Reuses request other →
      (later.onDisk disk').AnswersConflict other claim' := by
  have hnext := next_pos_of_reachable hfirst
  have hpos : 0 < (first.onDisk disk).nextDecisionSequence := hnext
  have hstands : 0 < later.nextDecisionSequence ∧ later.Stands request decision := by
    refine hlater.invariant
      (I := fun core => 0 < core.nextDecisionSequence ∧ core.Stands request decision) ?_ ?_
    · rintro core rfl
      exact ⟨hpos.trans_le (course_admitLocked hpos request claim).next_le,
        hnovel.stands hpos hanswer⟩
    · rintro core call ⟨hpos, hstands⟩ hguard
      have hpos' : 0 < (core.onDisk call.disk).nextDecisionSequence := hpos
      exact ⟨hpos.trans_le (course_perform hpos' call.operation).next_le,
        hstands.after hpos hguard⟩
  have hcore : (later.onDisk disk').Stands request decision := hstands.2.withJournal _
  exact ⟨fun repeated claim' hvalid hfence => hcore.answersRepetition hvalid hfence,
    fun other claim' hvalid hfence => hcore.answersConflict hvalid hfence⟩

/-- A grant of twenty is answered again after its revocation. -/
theorem replays_revokedGrant :
    let original := SmallFabric.request 1 ⟨1, 20, 20⟩ [1]
    let core := ((EngineCore.fresh {}).performAll (announce [known 1 1 100])).onDisk []
    ∃ decision, (core.admitLocked original {}).1 = .ok decision ∧
      (((core.admitLocked original {}).2.after
        { operation := .revoke 1 .operatorRequest {} }).onDisk []).AnswersRepetition decision
          original {} := by
  -- stated for a variable: the run itself is evaluated by the kernel only
  have hreplays : ∀ (first : EngineCore) (original : AdmissionRequest),
      Reachable Started EngineCore.after (fun _ _ => True) first →
      (first.onDisk []).Novel original {} →
      ((first.onDisk []).admitLocked original {}).1.toOption.isSome = true →
      ((((first.onDisk []).admitLocked original {}).2.after
        { operation := .revoke 1 .operatorRequest {} }).onDisk []).checkFence {} = .ok () →
      ∃ decision, ((first.onDisk []).admitLocked original {}).1 = .ok decision ∧
        ((((first.onDisk []).admitLocked original {}).2.after
          { operation := .revoke 1 .operatorRequest {} }).onDisk []).AnswersRepetition decision
            original {} := by
    intro first original hfirst hnovel hok hfence
    cases hanswer : ((first.onDisk []).admitLocked original {}).1 with
    | error status =>
      rw [hanswer] at hok
      cases hok
    | ok decision =>
      have hlater : Reachable (· = ((first.onDisk []).admitLocked original {}).2)
          EngineCore.after Unfenced (((first.onDisk []).admitLocked original {}).2.after
            { operation := .revoke 1 .operatorRequest {} }) :=
        .step _ (.init rfl) (by rintro request claim ⟨⟩)
      exact ⟨decision, rfl, (replays_of_reachable hfirst hnovel hanswer hlater []).1 original {}
        hnovel.valid hfence rfl rfl rfl⟩
  have hfirst : Reachable Started EngineCore.after (fun _ _ => True)
      ((EngineCore.fresh {}).performAll (announce [known 1 1 100])) :=
    Reachable.run (.init ⟨{}, Or.inl rfl⟩) (by decide +kernel)
  exact hreplays _ _ hfirst ⟨by decide +kernel, by decide +kernel, by decide +kernel⟩
    (by decide +kernel) (by decide +kernel)

/-- A grant of twenty and its revocation. -/
def revokedGrant : List Operation :=
  announce [known 1 1 100] ++
    [.admitRequest (SmallFabric.request 1 ⟨1, 20, 20⟩ [1]) {}, .revoke 1 .operatorRequest {}]

/-- A refusal of reused identities can change the answer to the original request: in a history with
room for one record it supplants that of the original. -/
theorem supplanted_by_reuse :
    let original := SmallFabric.request 1 ⟨1, 20, 20⟩ [1]
    let reuse : AdmissionRequest := { SmallFabric.request 1 ⟨1, 30, 30⟩ [1] with request := 2 }
    let core := (EngineCore.fresh { historyCapacity := 1 }).performAll revokedGrant
    (core.admitLocked original {}).1.toOption.map
        (fun answer => (answer.decision, answer.outcome, answer.idempotentReplay)) =
      some (1, .admitted, true) ∧
    (core.admitLocked reuse {}).1.toOption.map (·.outcome) = some .conflictingInput ∧
    ((core.admitLocked reuse {}).2.admitLocked original {}).1.toOption.map (·.outcome) =
      some .conflictingInput := by
  decide +kernel

end EngineCore

end AdmissionFabric
