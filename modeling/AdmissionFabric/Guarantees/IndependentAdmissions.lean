import AdmissionFabric.Engine.Locality
import AdmissionFabric.Engine.Named
import AdmissionFabric.Guarantees.PathAccounting

/-!
# Admissions that do not touch each other

Two requests that share no resource and no path, and no identity either, can be admitted in any
order: each gets the same answer, and the load is the same in the end. The verdict on a request
reads only what concerns the request, and an admission changes, beside the counters, only what
concerns its own request.

The statement is about engines without a journal: with one, a write of the first admission can fail
while that of the second succeeds.
-/

namespace AdmissionFabric

open AdmittedLoadLedger DecisionHistory Authority AttemptRegistry Std.ExtTreeMap

/-- What a caller is told about a decision, beside its identity and its explanation. -/
structure Reply where
  outcome : AdmissionOutcome
  granted : Rate
  selectedPath : PathId
  deriving DecidableEq, Repr

/-- What a decision says. -/
def AdmissionDecision.reply (decision : AdmissionDecision) : Reply :=
  ⟨decision.outcome, decision.granted, decision.selectedPath⟩

/-- What a record says of its decision. -/
def DecisionRecord.reply (record : DecisionRecord) : Reply :=
  ⟨record.outcome, record.granted, record.path⟩

/-- What a caller is told about a verdict that is carried out. -/
def Verdict.reply : Verdict → Reply
  | .refuse refusal _ _ | .retired refusal => ⟨refusal.outcome, 0, 0⟩
  | .replay decision => decision.reply
  | .grant accepted => ⟨accepted.outcome, accepted.granted, accepted.evidence.path⟩

/-- The load that a verdict adds to a resource. -/
def Verdict.loadOn (verdict : Verdict) (r : ResourceId) : Nat :=
  match verdict with
  | .grant accepted => if r ∈ accepted.targets then accepted.granted.toNat else 0
  | _ => 0

/-- The load that a verdict adds to a path. -/
def Verdict.loadOnPath (verdict : Verdict) (p : PathId) : Nat :=
  match verdict with
  | .grant accepted => if accepted.evidence.path = p then accepted.granted.toNat else 0
  | _ => 0

/-- Two verdicts that a caller cannot tell apart, and that add the same load. -/
structure Verdict.Alike (verdict verdict' : Verdict) : Prop where
  reply : verdict'.reply = verdict.reply
  loadOn : ∀ r, verdict'.loadOn r = verdict.loadOn r
  loadOnPath : ∀ p, verdict'.loadOnPath p = verdict.loadOnPath p

theorem Verdict.Alike.of_eq {verdict verdict' : Verdict} (h : verdict' = verdict) :
    verdict.Alike verdict' := by
  subst h
  exact ⟨rfl, fun _ => rfl, fun _ => rfl⟩

/-! ### Full histories -/

namespace DecisionHistory

variable {history : DecisionHistory} {ledger : AdmittedLoadLedger}

theorem capacity_le_size_trimFrom (ledger : AdmittedLoadLedger)
    (entries : List (AuditSequence × AdmissionDecisionId))
    (h : history.capacity ≤ history.records.size) :
    history.capacity ≤ (trimFrom ledger entries history).1.records.size := by
  induction entries generalizing history with
  | nil => exact h
  | cons entry rest ih =>
    rw [trimFrom]
    split
    · rename_i hfull
      split
      · exact ih h
      · have hsize := size_le_size_erase (t := history.records) (k := entry.2)
        have hstill : history.capacity ≤ (history.records.erase entry.2).size := by omega
        exact @ih { history with
          records := history.records.erase entry.2
          auditIndex := history.auditIndex.erase entry.1
          retired := history.retired + 1 } hstill
    · exact h

theorem capacity_le_size_trimHistory (h : history.capacity ≤ history.records.size) :
    history.capacity ≤ (EngineCore.trimHistory history ledger).records.size := by
  unfold EngineCore.trimHistory trim
  split
  · split
    · exact h
    · have hfull := capacity_le_size_trimFrom ledger
        (history.auditIndex.toList.dropWhile (·.1 < history.cursorAudit)) h
      split <;> simp_all
  · exact h

theorem find_trimHistory_or (history : DecisionHistory) (ledger : AdmittedLoadLedger)
    (d : AdmissionDecisionId) :
    (EngineCore.trimHistory history ledger).find d = history.find d ∨
      (EngineCore.trimHistory history ledger).find d = none ∧
        history.capacity ≤ (EngineCore.trimHistory history ledger).records.size := by
  rcases Nat.le_total history.records.size history.capacity with hfits | hfull
  · exact Or.inl (by rw [trimHistory_eq_self hfits])
  · cases hfind : (EngineCore.trimHistory history ledger).find d with
    | none => exact Or.inr ⟨rfl, capacity_le_size_trimHistory hfull⟩
    | some record =>
      exact Or.inl ((trimHistory_retires history ledger).find_of_find d record hfind).symm

end DecisionHistory

namespace EngineCore

variable {record : DecisionRecord} {decision : AdmissionDecision} {d : AdmissionDecisionId}
    {ledger : AdmittedLoadLedger} {grant : Grant} {r : ResourceId} {core core' : EngineCore}
    {request : AdmissionRequest} {claim : ClaimContext}

/-! ### Answers that are remembered -/

/-- A remembered answer says what its record says, which is retained unless there is no room. -/
def Echoes (history : DecisionHistory)
    (cache : Std.ExtTreeMap AdmissionDecisionId AdmissionDecision) : Prop :=
  ∀ (d : AdmissionDecisionId) cached, cache[d]? = some cached →
    (history.find d).map DecisionRecord.reply = some cached.reply ∨
      history.find d = none ∧ history.capacity ≤ history.records.size

section Echoes

variable {history : DecisionHistory} {cache : Std.ExtTreeMap AdmissionDecisionId AdmissionDecision}

theorem Echoes.erase (h : Echoes history cache) (d : AdmissionDecisionId) :
    Echoes history (cache.erase d) := by
  intro d' cached hget
  rw [getElem?_erase] at hget
  split at hget
  · cases hget
  · exact h d' cached hget

theorem Echoes.modify (h : Echoes history cache) (d : AdmissionDecisionId)
    {f : DecisionRecord → DecisionRecord} (hsame : ∀ record, SameDecision record (f record)) :
    Echoes (history.modify d f) cache := by
  have hsize : (history.modify d f).capacity = history.capacity ∧
      (history.modify d f).records.size = history.records.size := by
    unfold DecisionHistory.modify
    split
    · exact ⟨rfl, rfl⟩
    · exact ⟨capacity_update _ _ _, size_update _ _ _⟩
  intro d' cached hget
  have hold := h d' cached hget
  rw [hsize.1, hsize.2, find_modify]
  split
  · rename_i heq
    subst heq
    cases hfind : history.find d with
    | none => simpa [hfind] using hold
    | some record =>
      rw [hfind] at hold
      have hkept : (f record).reply = record.reply := by rw [hsame record]; rfl
      exact Or.inl ((congrArg some hkept).trans (hold.resolve_right nofun))
  · exact hold

theorem Echoes.settle (h : Echoes history cache) (ledger : AdmittedLoadLedger)
    (hne : record.decision ≠ 0) (hdecision : decision.decision = record.decision)
    (hreply : record.reply = decision.reply) :
    Echoes (trimHistory (history.insert record) ledger) (remember cache decision) := by
  intro d cached hget
  rw [(trimHistory_retires _ _).capacity_eq]
  rcases DecisionHistory.find_trimHistory_or (history.insert record) ledger d with
    hkept | hretired
  · rw [hkept, find_insert hne]
    by_cases hd : record.decision = d
    · have hself : (remember cache decision)[d]? = some decision := by
        rw [← hd, ← hdecision, remember, getElem?_insert_self]
      rw [if_pos hd, Option.some.inj (hget.symm.trans hself), ← hreply]
      exact Or.inl rfl
    · rw [if_neg hd]
      rcases getElem?_remember hget with ⟨rfl, -⟩ | hcached
      · exact absurd hdecision.symm hd
      · refine (h d cached hcached).imp_right fun hold => ⟨hold.1, ?_⟩
        have hgrown : history.records.size ≤ (history.insert record).records.size := by
          rw [records_insert_ne hne]
          exact size_le_size_insert
        refine DecisionHistory.capacity_le_size_trimHistory ?_
        rw [capacity_insert]
        exact hold.2.trans hgrown
  · exact Or.inr hretired

end Echoes

/-- The answers that an engine remembers echo its history. -/
structure Echoed (core : EngineCore) : Prop where
  next_pos : 0 < core.nextDecisionSequence
  echoes : Echoes core.history core.decisionCache

theorem ofStores_echoed : OfStores Echoed := by
  intro core core' hstores h
  have hnext : core'.nextDecisionSequence = core.nextDecisionSequence :=
    congrArg Stores.nextDecisionSequence hstores
  have hhistory : core'.history = core.history := congrArg Stores.history hstores
  have hcache : core'.decisionCache = core.decisionCache := congrArg Stores.decisionCache hstores
  exact ⟨hnext ▸ h.next_pos, by rw [hhistory, hcache]; exact h.echoes⟩

theorem preserved_echoed : Preserved Echoed where
  refusal core request claim reason evidence recordAttempt h := by
    have hne : (core.refusal request claim reason evidence).decision ≠ 0 := by
      rw [decision_refusal]
      exact Nat.ne_of_gt h.next_pos
    generalize hcall : core.consumeIdentity.finishRefusal _ _ _ = outcome
    cases finishRefusal_effect hcall with
    | unwritten _ => exact ⟨Nat.succ_pos _, h.echoes⟩
    | settled _ => exact ⟨Nat.succ_pos _, h.echoes.settle _ hne rfl rfl⟩
  grant core request claim grant _ h := by
    generalize hcall : core.consumeIdentity.finishAdmission _ _ _ = outcome
    cases finishAdmission_effect hcall with
    | unprepared _ | unreserved _ _ | uncommitted _ _ _ => exact ⟨Nat.succ_pos _, h.echoes⟩
    | committed _ _ _ =>
      rw [compactIfNeededLocked_snd]
      exact ⟨Nat.succ_pos _, h.echoes.settle _ (Nat.ne_of_gt h.next_pos) rfl rfl⟩
  release core d reason explanation _ h := by
    generalize hcall : core.releaseDecisionLocked d reason .revoked explanation = outcome
    cases releaseDecisionLocked_effect hcall with
    | unheld _ | unwritten _ _ | stuck _ _ _ | unmarked _ _ _ _ => exact ⟨h.next_pos, h.echoes⟩
    | released _ _ _ _ =>
      exact ⟨h.next_pos, (h.echoes.modify d (f := fun record =>
        { record with state := .revoked, reason, ledgerLive := false }) fun _ => rfl).erase d⟩
  mark core d f hsame _ h := ⟨h.next_pos, h.echoes.modify d hsame⟩
  note _ _ _ h := ⟨h.next_pos, h.echoes⟩
  compact core h := by
    rw [compactLocked_snd]
    exact ⟨h.next_pos, h.echoes⟩
  clearFlags _ h := ⟨h.next_pos, h.echoes⟩
  tidy core core' hstores _ h := ofStores_echoed core core' hstores h

theorem exists_replayVerdict (request : AdmissionRequest) (h : core.Echoed)
    (hfind : core.history.find d = some record) :
    ∃ answer, core.replayVerdict request d = .replay answer ∧ answer.reply = record.reply := by
  unfold replayVerdict
  cases hcached : core.decisionCache[d]? with
  | none => exact ⟨_, by rw [hfind], rfl⟩
  | some cached =>
    refine ⟨_, rfl, ?_⟩
    rcases h.echoes d cached hcached with hsame | hnone
    · rw [hfind] at hsame
      exact (Option.some.inj hsame).symm
    · rw [hfind] at hnone
      cases hnone.1

/-- The answer to an attempt does not depend on whether it is still remembered. -/
theorem alike_replayVerdict (h : core.Echoed) (h' : core'.Echoed)
    (hroom : core.history.records.size < core.history.capacity)
    (hhistory : core'.history.find d = core.history.find d)
    (hcache : core.decisionCache[d]? = none → core'.decisionCache[d]? = none) :
    (core.replayVerdict request d).Alike (core'.replayVerdict request d) := by
  cases hfind : core.history.find d with
  | some record =>
    obtain ⟨answer, hanswer, hreply⟩ := exists_replayVerdict request h hfind
    obtain ⟨answer', hanswer', hreply'⟩ :=
      exists_replayVerdict request h' (hhistory.trans hfind)
    rw [hanswer, hanswer']
    exact ⟨hreply'.trans hreply.symm, fun _ => rfl, fun _ => rfl⟩
  | none =>
    have hforgotten : core.decisionCache[d]? = none := by
      rw [Option.eq_none_iff_forall_ne_some]
      intro cached hcached
      rcases h.echoes d cached hcached with hsame | hfull
      · rw [hfind] at hsame
        cases hsame
      · exact Nat.not_le.mpr hroom hfull.2
    simp only [replayVerdict, hforgotten, hcache hforgotten, hhistory, hfind]
    exact .of_eq rfl

/-! ### Engines in memory -/

/-- An engine without a journal, with its books in order. -/
structure InMemory (core : EngineCore) : Prop extends core.Named where
  journal : core.journal = none
  consistent : core.Consistent
  echoed : core.Echoed

theorem writeJournal_none (ready : Bool) (record : JournalRecord) :
    writeJournal none ready record = (.ok (), none) := rfl

theorem journal_of_write {journal journal' : Option Journal} {ready : Bool}
    {record : JournalRecord} {result : Except Status Unit} (h : journal = none)
    (hwrite : writeJournal journal ready record = (result, journal')) : journal' = none := by
  rw [h, writeJournal_none] at hwrite
  exact (Prod.mk.inj hwrite).2.symm

theorem preserved_unjournaled : Preserved fun core => core.journal = none where
  refusal core request claim reason evidence recordAttempt h := by
    generalize hcall : core.consumeIdentity.finishRefusal _ _ _ = outcome
    cases finishRefusal_effect hcall with
    | unwritten hwrite | settled hwrite => exact journal_of_write h hwrite
  grant core request claim grant _ h := by
    generalize hcall : core.consumeIdentity.finishAdmission _ _ _ = outcome
    cases finishAdmission_effect hcall with
    | unprepared hprepare | unreserved hprepare _ => exact journal_of_write h hprepare
    | uncommitted hprepare _ hcommit =>
      exact journal_of_write (journal_of_write h hprepare) hcommit
    | committed hprepare _ hcommit =>
      obtain rfl := journal_of_write (journal_of_write h hprepare) hcommit
      rfl
  release core d reason explanation _ h := by
    generalize hcall : core.releaseDecisionLocked d reason .revoked explanation = outcome
    cases releaseDecisionLocked_effect hcall with
    | unheld _ => exact h
    | unwritten _ hwrite | stuck _ hwrite _ => exact journal_of_write h hwrite
    | unmarked _ hwrite _ hmark | released _ hwrite _ hmark =>
      exact journal_of_write (journal_of_write h hwrite) hmark
  mark _ _ _ _ _ h := h
  note core record _ h := by
    rw [writeRecord_eq core record rfl]
    exact journal_of_write h rfl
  compact core h := by simp only [compactLocked, h]
  clearFlags _ h := h
  tidy _ _ hstores _ h := (congrArg Stores.journal hstores).trans h

theorem InMemory.admitLocked (h : core.InMemory) (request : AdmissionRequest)
    (claim : ClaimContext) : (core.admitLocked request claim).2.InMemory where
  toNamed := preserved_named.admitLocked h.toNamed request claim
  journal := preserved_unjournaled.admitLocked h.journal request claim
  consistent := Consistent.preserved.admitLocked h.consistent request claim
  echoed := preserved_echoed.admitLocked h.echoed request claim

theorem InMemory.perform (h : core.InMemory) (operation : Operation) :
    (core.perform operation).2.InMemory where
  toNamed := preserved_named.perform ofStores_named h.toNamed operation
  journal := preserved_unjournaled.perform
    (fun _ _ hstores h => (congrArg Stores.journal hstores).trans h) h.journal operation
  consistent := Consistent.preserved.perform (fun _ _ hstores h => h.of_stores hstores)
    h.consistent operation
  echoed := preserved_echoed.perform ofStores_echoed h.echoed operation

theorem inMemory_of_reachable
    (h : TransitionSystem.Reachable (fun core => ∃ config, core = EngineCore.fresh config)
      EngineCore.after (fun _ _ => True) core) : core.InMemory := by
  refine h.invariant ?_ fun core call hcore _ => ?_
  · rintro _ ⟨config, rfl⟩
    exact ⟨.of_empty rfl rfl, rfl, Consistent.fresh config, Nat.one_pos, fun d cached hget => by
      simp [fresh] at hget⟩
  · have hdisk : core.onDisk call.disk = core := by
      rw [onDisk, hcore.journal, Option.map_none, ← hcore.journal]
    rw [after, next, hdisk]
    exact hcore.perform call.operation

/-! ### Carrying out a grant -/

theorem resource_ne_zero_of_freeOn {authority : Authority} {free : Rate}
    (h : free ∈ authority.freeOn ledger r) : r ≠ 0 := by
  obtain ⟨entry, hknown, -⟩ := Option.map_eq_some_iff.mp h
  obtain ⟨c, hc, hmem, rfl⟩ := findCapacity_eq_some_iff.mp
    (Option.filter_eq_some_iff.mp hknown).1
  have hvalid := authority.capacityValid c hc
  simp only [CapacitySnapshot.validate, check_bind_eq_ok_iff, checkIncreasing_none_eq_ok_iff]
    at hvalid
  exact (hvalid.2.2.2.2.2 entry hmem).1

theorem fits_of_verdict (h : core.verdict request claim = .grant grant) (hr : r ∈ grant.targets) :
    r ≠ 0 ∧ (core.ledger.admitted r).toNat + grant.granted.toNat < 2 ^ 64 := by
  obtain ⟨free, hfree, hle⟩ := granted_le_free (verdict_eq_grant h).2.2.2 hr
  refine ⟨resource_ne_zero_of_freeOn hfree, ?_⟩
  obtain ⟨entry, -, rfl⟩ := Option.map_eq_some_iff.mp hfree
  rw [UInt64.le_iff_toNat_le, toNat_satSub] at hle
  have hallowance := (core.allowance entry r).toNat_lt
  have htotal := (core.ledger.admitted r).toNat_lt
  omega

theorem targets_ne_nil_of_verdict (h : core.verdict request claim = .grant grant) :
    grant.targets ≠ [] := by
  obtain ⟨_, _, _, hresolve, -⟩ := evaluate_eq_ok (verdict_eq_grant h).2.2.2
  exact (resolve_eq_ok_iff.mp hresolve).2.2.2.2.2

theorem targets_subset_of_verdict (h : core.verdict request claim = .grant grant) :
    grant.targets ⊆ core.footprint request := by
  obtain ⟨_, _, _, hresolve, -⟩ := evaluate_eq_ok (verdict_eq_grant h).2.2.2
  obtain ⟨-, -, -, hselect, htargets, -⟩ := resolve_eq_ok_iff.mp hresolve
  intro r hr
  exact mem_footprint_of_mem_targetsOf hselect (htargets ▸ hr)

theorem path_mem_of_verdict (h : core.verdict request claim = .grant grant)
    (hpath : grant.evidence.path ≠ 0) :
    grant.evidence.path ∈ request.pathCandidates.map (·.path) := by
  obtain ⟨⟨candidate, hcandidate, hid⟩, -⟩ := granted_le_of_verdict h hpath
  exact List.mem_map.mpr ⟨candidate, hcandidate, hid⟩

/-- The ledger can still refuse the identity and the number of entries. -/
theorem reserve_isOk_iff_of_verdict (h : core.verdict request claim = .grant grant)
    (demand : DemandId) (epoch : FabricEpoch) (generation : Generation) :
    (∃ ledger, core.ledger.reserve core.nextDecisionSequence demand epoch generation
        grant.evidence.path (amountsOf grant) = (.ok (), ledger)) ↔
      core.nextDecisionSequence ≠ 0 ∧ core.ledger.holds core.nextDecisionSequence = false ∧
        core.ledger.entryCount + grant.targets.length ≤ Limits.maxLedgerEntries := by
  simp only [reserve_eq_ok_iff, checkReserve_eq_ok_iff,
    holds_eq_false_iff]
  constructor
  · rintro ⟨_, ⟨hne, hnew, -, hroom, -⟩, -⟩
    exact ⟨hne, hnew, by simpa [amountsOf] using hroom⟩
  · rintro ⟨hne, hnew, hroom⟩
    obtain ⟨pathTotals, hpath⟩ := Option.ne_none_iff_exists'.mp (addPath_of_verdict h)
    refine ⟨_, ⟨hne, hnew, by simpa [amountsOf] using targets_ne_nil_of_verdict h,
      by simpa [amountsOf] using hroom, fun a ha => ?_⟩, pathTotals, hpath, rfl⟩
    obtain ⟨r, hr, rfl⟩ := List.mem_map.mp ha
    exact fits_of_verdict h hr

theorem reserve_of_verdict (hcore : core.Consistent)
    (h : core.verdict request claim = .grant grant)
    (hroom : core.ledger.entryCount + (core.footprint request).length ≤ Limits.maxLedgerEntries)
    (demand : DemandId) (epoch : FabricEpoch) (generation : Generation) :
    ∃ ledger, core.ledger.reserve core.nextDecisionSequence demand epoch generation
      grant.evidence.path (amountsOf grant) = (.ok (), ledger) := by
  have hnew : core.ledger.holds core.nextDecisionSequence = false := by
    rw [Bool.eq_false_iff]
    intro hholds
    obtain ⟨record, hfind, -⟩ := hcore.admitting _ hholds
    exact Nat.lt_irrefl _ (hcore.below _ _ hfind).1
  have hnodup := nodup_targets_of_evaluate (verdict_eq_grant h).2.2.2
  have hlength := (List.subperm_of_subset hnodup (targets_subset_of_verdict h)).length_le
  exact (reserve_isOk_iff_of_verdict h demand epoch generation).mpr
    ⟨Nat.ne_of_gt hcore.next_pos, hnew, by omega⟩

/-! ### What an admission changes -/

/-- What is remembered of other decisions and other attempts stays, as long as there is room. -/
structure KeepsOthers (core core' : EngineCore) (request : AdmissionRequest) : Prop where
  history : core.history.records.size < core.history.capacity →
    ∀ d ≠ core.nextDecisionSequence, core'.history.find d = core.history.find d
  cache : ∀ d ≠ core.nextDecisionSequence, core.decisionCache[d]? = none →
    core'.decisionCache[d]? = none
  attempts : core.attempts.attempts.size < core.attempts.capacity →
    ∀ key ≠ (request.demand, request.attempt),
      core'.attempts.attempts[key]? = core.attempts.attempts[key]?
  fingerprints : ∀ id ≠ request.request,
    core'.attempts.requestFingerprints[id]? = core.attempts.requestFingerprints[id]?

theorem find_trimHistory_insert {history : DecisionHistory}
    (hroom : history.records.size < history.capacity) (ledger : AdmittedLoadLedger)
    (hd : d ≠ record.decision) :
    (trimHistory (history.insert record) ledger).find d = history.find d := by
  rw [trimHistory_insert_of_lt hroom]
  by_cases hzero : record.decision = 0
  · rw [DecisionHistory.insert, if_pos hzero]
  · rw [find_insert hzero, if_neg (Ne.symm hd)]

theorem keepsOthers_settle (core core' : EngineCore) (request : AdmissionRequest)
    (hhistory : core'.history = core.history) (hcache : core'.decisionCache = core.decisionCache)
    (hattempts : core'.attempts = core.attempts)
    (hdecision : decision.decision = core.nextDecisionSequence)
    (hrecord : record.decision = core.nextDecisionSequence) {attempt : Option AttemptRecord}
    (hattempt : ∀ a ∈ attempt,
      a.key = (request.demand, request.attempt) ∧ a.request = request.request) :
    core.KeepsOthers (core'.settle decision record attempt) request where
  history hroom d hd := by
    change (trimHistory (core'.history.insert record) core'.ledger).find d = _
    rw [hhistory]
    exact find_trimHistory_insert hroom _ (hrecord ▸ hd)
  cache d hd hnone := by
    rw [Option.eq_none_iff_forall_ne_some]
    intro cached hget
    rcases getElem?_remember hget with ⟨rfl, -⟩ | hcached
    · exact hd hdecision
    · rw [hcache, hnone] at hcached
      cases hcached
  attempts hroom key hkey := by
    cases attempt with
    | none => exact congrArg (fun registry => registry.attempts[key]?) hattempts
    | some a =>
      change (core'.attempts.record a).attempts[key]? = _
      rw [hattempts, getElem?_attempts_record (Or.inr hroom), if_neg]
      rw [(hattempt a rfl).1]
      exact Ne.symm hkey
  fingerprints id hid := by
    cases attempt with
    | none => exact congrArg (fun registry => registry.requestFingerprints[id]?) hattempts
    | some a =>
      change (core'.attempts.record a).requestFingerprints[id]? = _
      rw [hattempts, getElem?_requestFingerprints_record, if_neg]
      rw [(hattempt a rfl).2]
      exact fun h => hid h.1.symm

/-- What carrying out a verdict does to an engine without a journal. -/
structure Carried (core core' : EngineCore) (request : AdmissionRequest) (verdict : Verdict) :
    Prop extends KeepsOthers core core' request where
  authority : core'.toAuthority = core.toAuthority
  config : core'.config = core.config
  sessions : core'.sessions = core.sessions
  admitted : ∀ r, (core'.ledger.admitted r).toNat =
    (core.ledger.admitted r).toNat + verdict.loadOn r
  onPath : ∀ p ≠ 0, (core'.ledger.admittedOnPath p).toNat =
    (core.ledger.admittedOnPath p).toNat + verdict.loadOnPath p
  entryCount : core'.ledger.entryCount ≤
    core.ledger.entryCount + (core.footprint request).length

theorem refuse_of_none (hjournal : core.journal = none) (reason : Refusal)
    (evidence : Option Evidence) (recordAttempt : Bool) :
    core.refuse request claim reason evidence recordAttempt =
      (.ok (core.refusal request claim reason evidence),
        ({ core.consumeIdentity with journal := none } : EngineCore).settle
          (core.refusal request claim reason evidence)
          (core.consumeIdentity.toRecord (core.refusal request claim reason evidence))
          (if recordAttempt then some (core.consumeIdentity.attemptOf request
            (core.refusal request claim reason evidence)) else none)) := by
  have hwrite : ∀ record, core.consumeIdentity.writeRecord record =
      (.ok (), { core.consumeIdentity with journal := none }) := fun record =>
    writeRecord_eq _ _ (by rw [show core.consumeIdentity.journal = none from hjournal,
      writeJournal_none])
  simp only [refuse, finishRefusal, hwrite, Outcome.andThen_ok, answer]
  rfl

theorem carried_refuse (hjournal : core.journal = none) (reason : Refusal)
    (evidence : Option Evidence) (recordAttempt : Bool) {verdict : Verdict}
    (hload : ∀ r, verdict.loadOn r = 0) (hpath : ∀ p, verdict.loadOnPath p = 0) :
    (core.refuse request claim reason evidence recordAttempt).1.map AdmissionDecision.reply =
      .ok ⟨reason.outcome, 0, 0⟩ ∧
    core.Carried (core.refuse request claim reason evidence recordAttempt).2 request verdict := by
  rw [refuse_of_none hjournal]
  refine ⟨by cases evidence <;> rfl, ?_, rfl, rfl, rfl, fun r => by rw [hload]; rfl,
    fun p _ => by rw [hpath]; rfl, Nat.le_add_right _ _⟩
  have hdecision := core.decision_refusal request claim reason evidence
  have hrecord : (core.consumeIdentity.toRecord
    (core.refusal request claim reason evidence)).decision = core.nextDecisionSequence := hdecision
  refine keepsOthers_settle core { core.consumeIdentity with journal := none } request rfl rfl rfl
    hdecision hrecord fun a ha => ?_
  split at ha
  · obtain rfl := Option.some.inj ha
    exact ⟨rfl, rfl⟩
  · cases ha

theorem finishAdmission_of_reserve (core : EngineCore) (hjournal : core.journal = none)
    (decision : AdmissionDecision) {amounts : List (ResourceId × Rate)}
    (hreserve : core.ledger.reserve decision.decision decision.demand core.epoch
      decision.boundCapacityGeneration decision.selectedPath amounts = (.ok (), ledger)) :
    core.finishAdmission decision request amounts =
      (.ok (), ({ core with journal := none, ledger } : EngineCore).settle decision
        (core.liveRecord decision) (some (core.attemptOf request decision))) := by
  generalize hcall : core.finishAdmission decision request amounts = outcome
  cases finishAdmission_effect hcall with
  | unprepared hprepare =>
    rw [hjournal, writeJournal_none] at hprepare
    cases hprepare
  | unreserved _ hreserve' => cases hreserve.symm.trans hreserve'
  | uncommitted hprepare _ hcommit =>
    rw [hjournal, writeJournal_none] at hprepare
    obtain ⟨-, rfl⟩ := Prod.mk.inj hprepare
    cases hcommit
  | committed hprepare hreserve' hcommit =>
    rw [hjournal, writeJournal_none] at hprepare
    obtain ⟨-, rfl⟩ := Prod.mk.inj hprepare
    rw [writeJournal_none] at hcommit
    obtain ⟨-, rfl⟩ := Prod.mk.inj hcommit
    obtain ⟨-, rfl⟩ := Prod.mk.inj (hreserve.symm.trans hreserve')
    rfl

theorem carried_grant (hcore : core.InMemory) (h : core.verdict request claim = .grant grant)
    (hroom : core.ledger.entryCount + (core.footprint request).length ≤ Limits.maxLedgerEntries) :
    (core.admitLocked request claim).1.map AdmissionDecision.reply =
      .ok ⟨grant.outcome, grant.granted, grant.evidence.path⟩ ∧
    core.Carried (core.admitLocked request claim).2 request (.grant grant) := by
  obtain ⟨ledger, hreserve⟩ := reserve_of_verdict hcore.consistent h hroom request.demand core.epoch
    (core.admission request claim grant).boundCapacityGeneration
  have hfinished : core.consumeIdentity.finishAdmission (core.admission request claim grant)
      request (amountsOf grant) = _ :=
    finishAdmission_of_reserve core.consumeIdentity hcore.journal _ hreserve
  have hnodup := nodup_targets_of_evaluate (verdict_eq_grant h).2.2.2
  have hadmitted := toNat_admitted_of_reserve hnodup hreserve
  obtain ⟨-, pathTotals, hpath, hledger⟩ := reserve_eq_ok_iff.mp hreserve
  have hentries : ledger.entryCount = core.ledger.entryCount + grant.targets.length := by
    rw [hledger, withReservation, length_newEntries,
      amountsOf, List.length_map]
  have hhead : ((amountsOf grant).head?.map Prod.snd).getD 0 = grant.granted := by
    obtain ⟨r, rest, htargets⟩ := List.exists_cons_of_ne_nil (targets_ne_nil_of_verdict h)
    simp [amountsOf, htargets]
  have hlength := (List.subperm_of_subset hnodup (targets_subset_of_verdict h)).length_le
  rw [admitLocked_of_grant h, show grant.targets.map _ = amountsOf grant from rfl, hfinished]
  refine ⟨rfl, ?_, rfl, rfl, rfl, hadmitted, fun p hp => ?_, ?_⟩
  · have hdecision := core.decision_admission request claim grant
    have hrecord : (core.consumeIdentity.liveRecord
      (core.admission request claim grant)).decision = core.nextDecisionSequence := hdecision
    have hattempt : ∀ attempt ∈ some (core.consumeIdentity.attemptOf request
        (core.admission request claim grant)),
        attempt.key = (request.demand, request.attempt) ∧ attempt.request = request.request := by
      rintro _ ⟨⟩
      exact ⟨rfl, rfl⟩
    exact keepsOthers_settle core { core.consumeIdentity with journal := none, ledger } request
      rfl rfl rfl hdecision hrecord hattempt
  · have htotal := toNat_addPath hpath hp
    rw [hhead] at htotal
    simp only [admittedOnPath, if_neg hp]
    change (ledger.pathTotals.getD p 0).toNat = _
    rw [hledger]
    exact htotal
  · change ledger.entryCount ≤ _
    omega

theorem carried_admitLocked (hcore : core.InMemory) (request : AdmissionRequest)
    (claim : ClaimContext)
    (hroom : core.ledger.entryCount + (core.footprint request).length ≤ Limits.maxLedgerEntries) :
    (core.admitLocked request claim).1.map AdmissionDecision.reply =
      .ok (core.verdict request claim).reply ∧
    core.Carried (core.admitLocked request claim).2 request (core.verdict request claim) := by
  cases hverdict : core.verdict request claim with
  | refuse reason evidence recordAttempt =>
    simp only [admitLocked, hverdict]
    exact carried_refuse hcore.journal reason evidence recordAttempt (fun _ => rfl) fun _ => rfl
  | retired reason =>
    simp only [admitLocked, hverdict]
    have hjournal : core.countReplay.journal = none := hcore.journal
    obtain ⟨hreply, hcarried⟩ := carried_refuse hjournal reason none false
      (fun r => (rfl : (Verdict.retired reason).loadOn r = 0)) fun p => rfl
    exact ⟨hreply, { hcarried with }⟩
  | replay decision =>
    simp only [admitLocked, hverdict]
    exact ⟨rfl, ⟨fun _ _ _ => rfl, fun _ _ h => h, fun _ _ _ => rfl, fun _ _ => rfl⟩, rfl, rfl,
      rfl, fun _ => rfl, fun _ _ => rfl, Nat.le_add_right _ _⟩
  | grant grant => exact carried_grant hcore hverdict hroom

/-! ### Independent requests -/

/-- The requests share no identity, no attempt, no resource and no path. -/
structure Independent (core : EngineCore) (a b : AdmissionRequest) : Prop where
  request : a.request ≠ b.request
  attempt : (a.demand, a.attempt) ≠ (b.demand, b.attempt)
  resources : (core.footprint a).Disjoint (core.footprint b)
  paths : (a.pathCandidates.map (·.path)).Disjoint (b.pathCandidates.map (·.path))

theorem Independent.symm {a b : AdmissionRequest} (h : core.Independent a b) :
    core.Independent b a :=
  ⟨h.request.symm, h.attempt.symm, h.resources.symm, h.paths.symm⟩

/-- There are entries for both requests, and room for one more decision and attempt. -/
structure HasRoom (core : EngineCore) (a b : AdmissionRequest) : Prop where
  ledger : core.ledger.entryCount + (core.footprint a).length + (core.footprint b).length ≤
    Limits.maxLedgerEntries
  history : core.history.records.size < core.history.capacity
  attempts : core.attempts.attempts.size < core.attempts.capacity

theorem HasRoom.symm {a b : AdmissionRequest} (h : core.HasRoom a b) : core.HasRoom b a :=
  ⟨by have := h.ledger; omega, h.history, h.attempts⟩

theorem loadOn_of_not_mem (h : r ∉ core.footprint request) :
    (core.verdict request claim).loadOn r = 0 := by
  cases hverdict : core.verdict request claim with
  | refuse | retired | replay => rfl
  | grant grant => exact if_neg fun hr => h (targets_subset_of_verdict hverdict hr)

theorem loadOnPath_of_not_mem {p : PathId} (hp : p ≠ 0)
    (h : p ∉ request.pathCandidates.map (·.path)) :
    (core.verdict request claim).loadOnPath p = 0 := by
  cases hverdict : core.verdict request claim with
  | refuse | retired | replay => rfl
  | grant grant =>
    refine if_neg ?_
    rintro rfl
    exact h (path_mem_of_verdict hverdict hp)

section

variable {a b : AdmissionRequest} (hcore : core.InMemory) (hindependent : core.Independent a b)
  (hroom : core.HasRoom a b)
include hcore hindependent hroom

theorem alike_admitLocked (claimA claimB : ClaimContext) :
    (core.verdict b claimB).Alike ((core.admitLocked a claimA).2.verdict b claimB) := by
  have hledger := hroom.ledger
  obtain ⟨-, hcarried⟩ := carried_admitLocked hcore a claimA (by omega)
  have hload : core.SameLoad b core.ledger (core.admitLocked a claimA).2.ledger := by
    refine ⟨fun r hr => ?_, fun candidate hcandidate => ?_⟩
    · have hload := hcarried.admitted r
      rw [loadOn_of_not_mem fun hmem => hindependent.resources hmem hr] at hload
      exact UInt64.toNat_inj.mp hload
    · by_cases hzero : candidate.path = 0
      · simp [admittedOnPath, hzero]
      · have hload := hcarried.onPath candidate.path hzero
        rw [loadOnPath_of_not_mem hzero fun hmem =>
          hindependent.paths hmem (List.mem_map_of_mem hcandidate)] at hload
        exact UInt64.toNat_inj.mp hload
  have hattempt : (core.admitLocked a claimA).2.attempts.classify (probe b) =
      core.attempts.classify (probe b) :=
    classify_congr
      (hcarried.attempts hroom.attempts _ hindependent.attempt.symm)
      (hcarried.fingerprints _ hindependent.request.symm)
  by_cases hreplay : (core.attempts.classify (probe b)).disposition = .replay
  · simp only [verdict, checkFence_congr hcarried.authority hcarried.config hcarried.sessions,
      hattempt, hreplay]
    cases b.validate with
    | error contract => exact .of_eq rfl
    | ok _ =>
      cases core.checkFence claimB with
      | error refusal => exact .of_eq rfl
      | ok _ =>
        have hbelow := hcore.attempted _ _ (existing_of_replay hreplay)
        exact alike_replayVerdict hcore.echoed (hcore.admitLocked a claimA).echoed hroom.history
          (hcarried.history hroom.history _ (Nat.ne_of_lt hbelow))
          (hcarried.cache _ (Nat.ne_of_lt hbelow))
  · exact .of_eq (verdict_congr ⟨hcarried.authority, hcarried.config, hcarried.sessions, hload,
      hattempt, fun h => absurd h hreplay⟩ claimB)

theorem carried_second (claimA claimB : ClaimContext) :
    ((core.admitLocked a claimA).2.admitLocked b claimB).1.map AdmissionDecision.reply =
        .ok (core.verdict b claimB).reply ∧
      (∀ r, (((core.admitLocked a claimA).2.admitLocked b claimB).2.ledger.admitted r).toNat =
        (core.ledger.admitted r).toNat + (core.verdict a claimA).loadOn r +
          (core.verdict b claimB).loadOn r) ∧
      ∀ p ≠ 0,
        (((core.admitLocked a claimA).2.admitLocked b claimB).2.ledger.admittedOnPath p).toNat =
        (core.ledger.admittedOnPath p).toNat + (core.verdict a claimA).loadOnPath p +
          (core.verdict b claimB).loadOnPath p := by
  have hledger := hroom.ledger
  obtain ⟨-, hfirst⟩ := carried_admitLocked hcore a claimA (by omega)
  have hcore' := hcore.admitLocked a claimA
  have halike := alike_admitLocked hcore hindependent hroom claimA claimB
  have hroom' : (core.admitLocked a claimA).2.ledger.entryCount +
      ((core.admitLocked a claimA).2.footprint b).length ≤ Limits.maxLedgerEntries := by
    have hcount := hfirst.entryCount
    rw [hfirst.authority]
    omega
  obtain ⟨hreply, hsecond⟩ := carried_admitLocked hcore' b claimB hroom'
  rw [halike.reply] at hreply
  refine ⟨hreply, fun r => ?_, fun p hp => ?_⟩
  · rw [hsecond.admitted, hfirst.admitted, halike.loadOn]
  · rw [hsecond.onPath p hp, hfirst.onPath p hp, halike.loadOnPath]

end

/-- Two independent requests are answered the same in both orders, and both orders lead to the same
load. -/
theorem admitLocked_comm {a b : AdmissionRequest}
    (h : TransitionSystem.Reachable (fun core => ∃ config, core = EngineCore.fresh config)
      EngineCore.after (fun _ _ => True) core)
    (hroom : core.HasRoom a b) (hindependent : core.Independent a b)
    (claimA claimB : ClaimContext) :
    let afterA := (core.admitLocked a claimA).2
    let afterB := (core.admitLocked b claimB).2
    (core.admitLocked a claimA).1.map AdmissionDecision.reply =
        (afterB.admitLocked a claimA).1.map AdmissionDecision.reply ∧
      (afterA.admitLocked b claimB).1.map AdmissionDecision.reply =
        (core.admitLocked b claimB).1.map AdmissionDecision.reply ∧
      (∀ r, (afterA.admitLocked b claimB).2.ledger.admitted r =
        (afterB.admitLocked a claimA).2.ledger.admitted r) ∧
      ∀ p, (afterA.admitLocked b claimB).2.ledger.admittedOnPath p =
        (afterB.admitLocked a claimA).2.ledger.admittedOnPath p := by
  have hcore := inMemory_of_reachable h
  have hledger := hroom.ledger
  obtain ⟨hfirstA, -⟩ := carried_admitLocked hcore a claimA (by omega)
  obtain ⟨hfirstB, -⟩ := carried_admitLocked hcore b claimB (by omega)
  obtain ⟨hsecondB, hloadAB, hpathAB⟩ := carried_second hcore hindependent hroom claimA claimB
  obtain ⟨hsecondA, hloadBA, hpathBA⟩ :=
    carried_second hcore hindependent.symm hroom.symm claimB claimA
  refine ⟨hfirstA.trans hsecondA.symm, hsecondB.trans hfirstB.symm, fun r => ?_, fun p => ?_⟩
  · exact UInt64.toNat_inj.mp (by rw [hloadAB, hloadBA, Nat.add_right_comm])
  · by_cases hp : p = 0
    · simp [admittedOnPath, hp]
    · exact UInt64.toNat_inj.mp (by rw [hpathAB p hp, hpathBA p hp, Nat.add_right_comm])

section Examples

open SmallFabric

/-- An engine with two resources. -/
def twoResources : EngineCore :=
  (EngineCore.fresh {}).performAll (announce [known 1 1 100, known 2 1 100])

/-- Requests for one resource each. -/
theorem admitLocked_comm_two :
    let a := SmallFabric.request 1 ⟨1, 20, 20⟩ [1]
    let b := SmallFabric.request 2 ⟨1, 20, 20⟩ [2]
    let afterA := (twoResources.admitLocked a {}).2
    let afterB := (twoResources.admitLocked b {}).2
    (twoResources.admitLocked a {}).1.map AdmissionDecision.reply =
        (afterB.admitLocked a {}).1.map AdmissionDecision.reply ∧
      (afterA.admitLocked b {}).2.ledger.admitted 1 =
        (afterB.admitLocked a {}).2.ledger.admitted 1 ∧
      (afterA.admitLocked b {}).2.ledger.admitted 1 = 20 := by
  intro a b afterA afterB
  have hstart : TransitionSystem.Reachable (fun core => ∃ config, core = fresh config)
      after (fun _ _ => True) (fresh {}) := .init ⟨{}, rfl⟩
  have hreachable : TransitionSystem.Reachable
      (fun core => ∃ config, core = fresh config)
      after (fun _ _ => True) twoResources := hstart.run (by decide +kernel)
  have hroom : twoResources.HasRoom a b :=
    ⟨by decide +kernel, by decide +kernel, by decide +kernel⟩
  have hdisjoint : ∀ {l l' : List UInt64}, l.all (fun r => !l'.contains r) = true →
      l.Disjoint l' := by
    intro l l' h r hr hr'
    simpa [hr'] using List.all_eq_true.mp h r hr
  have hindependent : twoResources.Independent a b :=
    ⟨by decide, by decide, hdisjoint (by decide +kernel), hdisjoint (by decide)⟩
  obtain ⟨hreply, -, hload, -⟩ := admitLocked_comm hreachable hroom hindependent {} {}
  exact ⟨hreply, hload 1, by decide +kernel⟩

end Examples

end EngineCore

end AdmissionFabric
