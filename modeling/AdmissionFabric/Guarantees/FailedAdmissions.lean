import AdmissionFabric.Guarantees.IndependentAdmissions
import AdmissionFabric.Guarantees.JournalGrowth

/-!
# Admissions that fail

A grant writes its intent, reserves its load, writes its commit, enters the decision into the books
and then compacts the journal if it has grown long. An error at any of the durable steps is the
answer of the call.

The reservation is taken back when the commit can not be written. For a grant on a path that
traverses several resources this takes more off the total of the path than the grant put on it.
After the commit nothing is taken back: when the compaction fails, the answer is an error about an
admission that holds its load.
-/

namespace AdmissionFabric

/-! ### Taking a reservation back -/

namespace AdmittedLoadLedger

open Std (ExtTreeMap)

variable {ledger reserved : AdmittedLoadLedger} {d : AdmissionDecisionId} {demand : DemandId}
  {epoch : FabricEpoch} {generation : Generation} {path : PathId}
  {amounts : List (ResourceId × Rate)}

/-- Raising and lowering a total restores the map unless the amounts differ or it was zero. -/
theorem subtract_insert_eq_iff (totals : ExtTreeMap UInt64 Rate) (key : UInt64)
    (added removed : Rate) :
    subtract (totals.insert key (totals.getD key 0 + added)) key removed = totals ↔
      totals[key]? ≠ some (0 : Rate) ∧ removed = added := by
  have hother : ∀ r, key ≠ r → (subtract (totals.insert key (totals.getD key 0 + added)) key
      removed)[r]? = totals[r]? := by
    intro r hr
    simp only [subtract]
    split <;> grind
  have hself : (subtract (totals.insert key (totals.getD key 0 + added)) key removed)[key]? =
      totals[key]? ↔ totals[key]? ≠ some (0 : Rate) ∧ removed = added := by
    have hvalue : totals.getD key 0 = totals[key]?.getD 0 := ExtTreeMap.getD_eq_getD_getElem?
    simp only [subtract, ExtTreeMap.getD_insert_self, hvalue]
    generalize totals[key]? = before
    cases before <;> split <;> simp <;> grind
  rw [← hself]
  refine ⟨fun h => by rw [h], fun h => ExtTreeMap.ext_getElem? fun r => ?_⟩
  by_cases hr : key = r
  · rw [← hr, h]
  · exact hother r hr

theorem getElem?_subLoad_ne {r : ResourceId} (totals : ExtTreeMap ResourceId Rate)
    (h : totals[r]? ≠ some (0 : Rate) ∨ r ∈ amounts.map Prod.fst) :
    (subLoad totals amounts)[r]? ≠ some (0 : Rate) := by
  induction amounts generalizing totals with
  | nil => simpa [subLoad] using h
  | cons a as ih =>
    refine ih _ ?_
    by_cases hr : a.1 = r
    · left
      simp only [subtract]
      split <;> grind
    · rw [List.map_cons, List.mem_cons, or_iff_right (Ne.symm hr)] at h
      refine h.imp_left fun hne => ?_
      simp only [subtract]
      split <;> grind

theorem getElem?_subLoad_addLoad {r : ResourceId} (totals totals' : ExtTreeMap ResourceId Rate)
    (h : r ∉ amounts.map Prod.fst) : (addLoad totals amounts)[r]? = totals[r]? ∧
      (subLoad totals' amounts)[r]? = totals'[r]? := by
  induction amounts generalizing totals totals' with
  | nil => exact ⟨rfl, rfl⟩
  | cons a as ih =>
    rw [List.map_cons, List.mem_cons, not_or] at h
    obtain ⟨hadd, hsub⟩ := ih (totals.insert a.1 (totals.getD a.1 0 + a.2))
      (subtract totals' a.1 a.2) h.2
    refine ⟨hadd.trans (by grind), hsub.trans ?_⟩
    simp only [subtract]
    split <;> grind

theorem subLoad_addLoad_eq_iff (hnodup : (amounts.map Prod.fst).Nodup)
    (hfit : ∀ a ∈ amounts, (ledger.totals.getD a.1 0).toNat + a.2.toNat < 2 ^ 64) :
    subLoad (addLoad ledger.totals amounts) amounts = ledger.totals ↔
      ∀ r ∈ amounts.map Prod.fst, ledger.totals[r]? ≠ some (0 : Rate) := by
  constructor
  · intro h r hr
    rw [← h]
    exact getElem?_subLoad_ne _ (Or.inr hr)
  · intro h
    refine ExtTreeMap.ext_getElem? fun r => ?_
    by_cases hr : r ∈ amounts.map Prod.fst
    · have hamount := getD_subLoad_addLoad hnodup hfit r
      have hzero := getElem?_subLoad_ne (addLoad ledger.totals amounts) (Or.inr hr)
      have hzero' := h r hr
      rw [ExtTreeMap.getD_eq_getD_getElem?, ExtTreeMap.getD_eq_getD_getElem?] at hamount
      generalize (subLoad (addLoad ledger.totals amounts) amounts)[r]? = restored at hamount hzero ⊢
      cases restored <;> cases hbefore : ledger.totals[r]? <;> simp_all
    · obtain ⟨hadd, hsub⟩ := getElem?_subLoad_addLoad ledger.totals
        (addLoad ledger.totals amounts) hr
      exact hsub.trans hadd

theorem subPath_addPath_eq_iff {pathTotals : ExtTreeMap PathId Rate}
    (h : ledger.addPath path amounts = some pathTotals) (hne : amounts ≠ []) :
    subPath pathTotals (newEntries d demand epoch generation path amounts) = ledger.pathTotals ↔
      path = 0 ∨ ledger.pathTotals[path]? ≠ some (0 : Rate) ∧
        Faithful (newEntries d demand epoch generation path amounts) := by
  obtain ⟨a, rest, rfl⟩ := List.exists_cons_of_ne_nil hne
  unfold addPath at h
  by_cases hpath : path = 0
  · rw [if_pos hpath] at h
    obtain rfl := Option.some.inj h
    exact iff_of_true (by simp [subPath, newEntries, hpath]) (Or.inl hpath)
  rw [if_neg hpath] at h
  obtain ⟨updated, hadd, rfl⟩ := Option.map_eq_some_iff.mp h
  obtain rfl : updated = ledger.pathTotals.getD path 0 + a.2 := by
    have hsum := (addU64_eq_some_iff _ _ _).mp hadd
    have hlt := updated.toNat_lt
    simp only [List.head?_cons, Option.map_some, Option.getD_some] at hsum
    rw [← UInt64.toNat_inj, UInt64.toNat_add, ← hsum, Nat.mod_eq_of_lt hlt]
  have hfaithful : Faithful (newEntries d demand epoch generation path (a :: rest)) ↔
      pathRelease (newEntries d demand epoch generation path (a :: rest)) = a.2 := by
    simp [Faithful, newEntries, hpath]
  rw [hfaithful, or_iff_right hpath, ← subtract_insert_eq_iff]
  simp [subPath, newEntries, hpath, pathRelease]

/-- A reservation can be taken back; this is exact if it is faithful and erases no zero. -/
theorem exists_undone (hnodup : (amounts.map Prod.fst).Nodup) (hne : amounts ≠ [])
    (hreserve : ledger.reserve d demand epoch generation path amounts = (.ok (), reserved)) :
    ∃ es released, reserved.release d = .ok (es, released) ∧
      (released = ledger ↔ (∀ r ∈ amounts.map Prod.fst, ledger.totals[r]? ≠ some (0 : Rate)) ∧
        (path = 0 ∨ ledger.pathTotals[path]? ≠ some (0 : Rate) ∧
          Faithful (newEntries d demand epoch generation path amounts))) := by
  obtain ⟨es, released, hrelease, hby, hcount, -⟩ := release_of_reserve hnodup hreserve
  refine ⟨es, released, hrelease, ?_⟩
  obtain ⟨hcheck, pathTotals, hpath, rfl⟩ := reserve_eq_ok_iff.mp hreserve
  have hfit := (checkReserve_eq_ok_iff.mp hcheck).2.2.2.2
  obtain ⟨-, hes, -, rfl⟩ := release_eq_ok_iff.mp hrelease
  obtain rfl := Option.some.inj (ExtTreeMap.getElem?_insert_self.symm.trans hes)
  rw [← subLoad_addLoad_eq_iff hnodup fun a ha => (hfit a ha).2,
    ← subPath_addPath_eq_iff hpath hne]
  constructor
  · intro h
    exact ⟨by simpa [without, withReservation, map_newEntries] using congrArg totals h,
      congrArg AdmittedLoadLedger.pathTotals h⟩
  · rintro ⟨htotals, hpaths⟩
    cases ledger
    simp_all [without, withReservation, map_newEntries]

theorem exists_undone_grant {targets : List ResourceId} {granted : Rate} (hnodup : targets.Nodup)
    (hne : targets ≠ []) (hreserve : ledger.reserve d demand epoch generation path
      (targets.map fun resource => (resource, granted)) = (.ok (), reserved)) :
    ∃ es released, reserved.release d = .ok (es, released) ∧
      (released = ledger ↔ (∀ r ∈ targets, ledger.totals[r]? ≠ some (0 : Rate)) ∧
        (path = 0 ∨ ledger.pathTotals[path]? ≠ some (0 : Rate) ∧
          (targets.length = 1 ∨ granted = 0 ∨ granted.toNat = 2 ^ 64 - 1))) := by
  have hfst : (targets.map fun resource => (resource, granted)).map Prod.fst = targets := by
    simp [Function.comp_def]
  obtain ⟨es, released, hrelease, hsame⟩ :=
    exists_undone (by rwa [hfst]) (by simpa using hne) hreserve
  refine ⟨es, released, hrelease, hsame.trans ?_⟩
  rw [hfst]
  by_cases hpath : path = 0
  · simp only [hpath, true_or]
  · rw [faithful_newEntries_iff hpath hne]

theorem eq_of_reserve_error {ledger' : AdmittedLoadLedger} {status : Status}
    (hpath : ledger.addPath path amounts ≠ none)
    (h : ledger.reserve d demand epoch generation path amounts = (.error status, ledger')) :
    ledger' = ledger := by
  unfold reserve at h
  split at h
  · exact (Prod.mk.inj h).2.symm
  · split at h
    · contradiction
    · cases h

end AdmittedLoadLedger

namespace EngineCore

open SmallFabric

variable {decision : AdmissionDecision}

/-- The ledger with all its totals and entries, the history and the attempts are as they were. -/
structure Untraced (core core' : EngineCore) : Prop where
  ledger : core'.ledger = core.ledger
  history : core'.history = core.history
  attempts : core'.attempts = core.attempts

section Grant

variable (core : EngineCore) (request : AdmissionRequest) (claim : ClaimContext) (grant : Grant)

/-- The intent frame of a grant. -/
def prepareFrame : JournalRecord :=
  .admissionPrepare
    (core.consumeIdentity.prepareOf (core.admission request claim grant) (amountsOf grant))

/-- The commit frame of a grant. -/
def commitFrame : JournalRecord :=
  .admissionCommit (core.consumeIdentity.liveRecord (core.admission request claim grant))

/-- Whether the ledger takes a grant that the evaluation arrived at. -/
def LedgerTakes : Prop :=
  core.nextDecisionSequence ≠ 0 ∧ core.ledger.holds core.nextDecisionSequence = false ∧
    core.ledger.entryCount + grant.targets.length ≤ Limits.maxLedgerEntries

/-- Whether a grant that fails at one of its durable steps leaves no trace. Once its intent is
written and its load reserved, a commit that is not written has to be taken back exactly: no total
of zero is erased, and the grant is on no path or on one resource, or the sum over its resources is
the grant itself. Once its commit is written, a compaction that is due has to succeed. -/
def FailsCleanly (journal : Journal) : Prop :=
  core.journalReady = true → journal.Accepts (core.prepareFrame request claim grant) →
    journal.Persists (journal.outcomeOf 0) → core.LedgerTakes grant →
      if journal.Accepts (core.commitFrame request claim grant) ∧
          journal.Persists (journal.outcomeOf 1) then
        journal.options.compactAtRecords ≤ journal.frameCount + 2 →
          journal.outcomeOf 2 = .synced ∧
            journal.FitsFile (core.entered request claim grant).compactedRecords
      else (∀ r ∈ grant.targets, core.ledger.totals[r]? ≠ some (0 : Rate)) ∧
        (grant.evidence.path = 0 ∨ core.ledger.pathTotals[grant.evidence.path]? ≠ some (0 : Rate) ∧
          (grant.targets.length = 1 ∨ grant.granted = 0 ∨ grant.granted.toNat = 2 ^ 64 - 1))

end Grant

variable {core : EngineCore} {journal : Journal} {request : AdmissionRequest}
  {claim : ClaimContext} {grant : Grant}

/-! ### Grants -/

theorem isError_iff {ε : Type} {x : Except ε Unit} : (∃ e, x = .error e) ↔ x ≠ .ok () := by
  rcases x with e | ⟨⟩ <;> simp

theorem compactIfNeededLocked_eq_ok_iff (hjournal : core.journal = some journal) :
    core.compactIfNeededLocked.1 = .ok () ↔
      (core.journalReady = true → journal.options.compactAtRecords ≤ journal.frameCount →
        journal.isOpen = true ∧ journal.outcomeOf 0 = .synced ∧
          journal.FitsFile core.compactedRecords) := by
  simp only [compactIfNeededLocked, compactLocked, hjournal]
  by_cases hready : core.journalReady = true
  · by_cases hdue : journal.options.compactAtRecords ≤ journal.frameCount
    · simp [hready, hdue, Journal.compact_eq_ok_iff]
    · simp [hdue]
  · simp [hready]

theorem not_untraced_of_reserve {core' : EngineCore} {d : AdmissionDecisionId} {demand : DemandId}
    {epoch : FabricEpoch} {generation : Generation} {path : PathId}
    {amounts : List (ResourceId × Rate)} {ledger : AdmittedLoadLedger}
    (hreserve : core.ledger.reserve d demand epoch generation path amounts = (.ok (), ledger))
    (hledger : core'.ledger = ledger) : ¬ core.Untraced core' := by
  intro huntraced
  obtain ⟨hcheck, pathTotals, -, rfl⟩ := AdmittedLoadLedger.reserve_eq_ok_iff.mp hreserve
  have hbefore := (AdmittedLoadLedger.checkReserve_eq_ok_iff.mp hcheck).2.1
  rw [← huntraced.ledger, hledger] at hbefore
  simp [AdmittedLoadLedger.withReservation] at hbefore

theorem untraced_finishAdmission_iff (hjournal : core.journal = some journal)
    (hverdict : core.verdict request claim = .grant grant) :
    ((∃ status, (core.consumeIdentity.finishAdmission (core.admission request claim grant) request
          (amountsOf grant)).1 = .error status) →
        core.Untraced (core.consumeIdentity.finishAdmission (core.admission request claim grant)
          request (amountsOf grant)).2) ↔
      core.FailsCleanly request claim grant journal := by
  have hnodup := Authority.nodup_targets_of_evaluate (verdict_eq_grant hverdict).2.2.2
  have htargets := targets_ne_nil_of_verdict hverdict
  have htakes := reserve_isOk_iff_of_verdict hverdict request.demand core.epoch
    ((core.capacity.map (·.generation)).getD 0)
  generalize hcall : core.consumeIdentity.finishAdmission _ _ _ = outcome
  have hsome : core.consumeIdentity.journal = some journal := hjournal
  cases finishAdmission_effect hcall with
  | unprepared hprepare =>
    rw [hsome] at hprepare
    refine iff_of_true (fun _ => ⟨rfl, rfl, rfl⟩) fun _ haccepts hpersists => ?_
    exact absurd ⟨haccepts, hpersists⟩ (of_writeJournal_error hprepare).2
  | unreserved _ hreserve =>
    refine iff_of_true (fun _ => ⟨?_, rfl, rfl⟩) fun _ _ _ hroom => ?_
    · exact AdmittedLoadLedger.eq_of_reserve_error (addPath_of_verdict hverdict) hreserve
    · obtain ⟨ledger, hok⟩ := htakes.mpr hroom
      cases hok.symm.trans hreserve
  | uncommitted hprepare hreserve hcommit =>
    rw [hsome] at hprepare
    obtain ⟨journal', rfl, hwritten⟩ := exists_of_writeJournal_ok hprepare
    obtain ⟨hready, hfails⟩ := of_writeJournal_error hcommit
    obtain ⟨⟨haccepts, hpersists⟩, hwritten⟩ := hwritten hready
    rw [hwritten.accepts_iff, hwritten.persists_iff, hwritten.outcomeOf] at hfails
    have hunwritten : ¬ (journal.Accepts (core.commitFrame request claim grant) ∧
        journal.Persists (journal.outcomeOf 1)) := hfails
    obtain ⟨es, released, hrelease, hview⟩ :=
      AdmittedLoadLedger.exists_undone_grant hnodup htargets hreserve
    rw [undone_eq hrelease]
    refine Iff.trans ⟨fun h => (h ⟨_, rfl⟩).ledger, fun hsame _ => ⟨hsame, rfl, rfl⟩⟩
      (hview.trans ?_)
    constructor
    · intro hexact _ _ _ _
      rwa [if_neg hunwritten]
    · intro hclean
      have hexact := hclean hready haccepts hpersists (htakes.mp ⟨_, hreserve⟩)
      rwa [if_neg hunwritten] at hexact
  | @committed _ _ ledger hprepare hreserve hcommit =>
    rw [hsome] at hprepare
    obtain ⟨journal', rfl, hwritten⟩ := exists_of_writeJournal_ok hprepare
    obtain ⟨journal'', rfl, hwritten'⟩ := exists_of_writeJournal_ok hcommit
    obtain rfl : _ = ledger := congrArg Prod.snd hreserve
    -- the books are those of the entered grant, and only the compaction is left to fail
    change (_ → core.Untraced (compactIfNeededLocked
      { core.entered request claim grant with journal := some journal'' }).2) ↔ _
    have htraced : ¬ core.Untraced (compactIfNeededLocked
        { core.entered request claim grant with journal := some journal'' }).2 :=
      not_untraced_of_reserve hreserve (by rw [compactIfNeededLocked_snd]; rfl)
    rw [imp_iff_not htraced, isError_iff, ne_eq, not_not]
    refine (compactIfNeededLocked_eq_ok_iff rfl).trans (imp_congr_right fun hready => ?_)
    obtain ⟨⟨haccepts, hpersists⟩, hprepared⟩ := hwritten hready
    obtain ⟨⟨haccepts', hpersists'⟩, hcommitted⟩ := hwritten' hready
    rw [hprepared.accepts_iff] at haccepts'
    rw [hprepared.persists_iff, hprepared.outcomeOf] at hpersists'
    have hboth : journal.Accepts (core.commitFrame request claim grant) ∧
        journal.Persists (journal.outcomeOf 1) := ⟨haccepts', hpersists'⟩
    rw [hcommitted.fitsFile_iff, hprepared.fitsFile_iff, hcommitted.outcomeOf, hprepared.outcomeOf,
      hcommitted.options, hprepared.options, hcommitted.frameCount, hprepared.frameCount,
      if_pos hboth]
    constructor
    · exact fun hcompacts _ _ _ hdue => (hcompacts hdue).2
    · exact fun hclean hdue =>
        ⟨hcommitted.isOpen, hclean haccepts hpersists (htakes.mp ⟨_, hreserve⟩) hdue⟩

/-! ### Calls -/

theorem untraced_finishRefusal {recordAttempt : Bool} {status : Status}
    (h : (core.finishRefusal decision request recordAttempt).1 = .error status) :
    core.Untraced (core.finishRefusal decision request recordAttempt).2 := by
  generalize hcall : core.finishRefusal decision request recordAttempt = outcome at h ⊢
  cases finishRefusal_effect hcall with
  | unwritten _ => exact ⟨rfl, rfl, rfl⟩
  | settled _ => cases h

theorem isError_answer_iff {outcome : Outcome Unit} :
    (∃ status, (answer decision outcome).1 = .error status) ↔
      ∃ status, outcome.1 = .error status := by
  obtain ⟨status | ⟨⟩, core⟩ := outcome <;> simp [answer, Outcome.andThen]

/-- A failed admission leaves the ledger, the history and the attempts as they were exactly if the
request is not granted, or its grant fails cleanly. -/
theorem untraced_iff_failsCleanly (hjournal : core.journal = some journal)
    (request : AdmissionRequest) (claim : ClaimContext) :
    ((∃ status, (core.admitLocked request claim).1 = .error status) →
        core.Untraced (core.admitLocked request claim).2) ↔
      ∀ grant, core.verdict request claim = .grant grant →
        core.FailsCleanly request claim grant journal := by
  cases hverdict : core.verdict request claim with
  | refuse reason evidence recordAttempt | retired reason =>
    simp only [admitLocked, hverdict, refuse, isError_answer_iff, answer_snd, reduceCtorEq,
      false_implies, implies_true, iff_true]
    rintro ⟨status, herror⟩
    obtain ⟨hledger, hhistory, hattempts⟩ := untraced_finishRefusal herror
    exact ⟨hledger, hhistory, hattempts⟩
  | replay decision => simp only [admitLocked, hverdict, reduceCtorEq, exists_false, false_implies,
      implies_true]
  | grant grant =>
    simp only [admitLocked, hverdict, isError_answer_iff, answer_snd, Verdict.grant.injEq,
      forall_eq']
    exact untraced_finishAdmission_iff hjournal hverdict

section Examples

/-- Sixty of a path of a hundred are admitted; the next writes have the given outcomes. -/
def boundCore (compactAtRecords : Nat) (disk : List DiskOutcome) : EngineCore :=
  ((boot {} { options := { compactAtRecords } }).2.performAll
    (announce [known 1 1 1000, known 2 1 1000] ++ [.publishPaths (pathThrough [1, 2]),
      .admitRequest (boundRequest 1 60) {}])).onDisk disk

/-- A grant of zero on a resource without capacity; the next commit can not be written. -/
def spentCore : EngineCore :=
  ((boot {} {}).2.performAll (announce [known 1 1 0] ++
    [.admitRequest (SmallFabric.request 1 ⟨0, 5, 5⟩ [1]) {}])).onDisk [.synced, .lost]

/-- Another request on that resource. -/
def spentRequest : AdmissionRequest := SmallFabric.request 2 ⟨0, 5, 5⟩ [1]

/-- The intent can not be written. -/
theorem untraced_boundCore :
    ((boundCore 1000 [.lost]).admitLocked (boundRequest 2 40) {}).1.toBool = false ∧
      (boundCore 1000 [.lost]).Untraced
        ((boundCore 1000 [.lost]).admitLocked (boundRequest 2 40) {}).2 := by
  have hdisk : (boundCore 1000 [.lost]).journal.map (·.disk) = some [.lost] := by decide +kernel
  have hfails : ((boundCore 1000 [.lost]).admitLocked (boundRequest 2 40) {}).1.toBool = false := by
    decide +kernel
  obtain ⟨journal, hjournal, hlost⟩ := Option.map_eq_some_iff.mp hdisk
  refine ⟨hfails, (untraced_iff_failsCleanly hjournal _ _).mpr ?_ ?_⟩
  · intro grant _ _ _ hpersists
    simp [Journal.outcomeOf, hlost, Journal.Persists] at hpersists
  · revert hfails
    cases ((boundCore 1000 [.lost]).admitLocked (boundRequest 2 40) {}).1 with
    | ok result =>
      intro htrue
      cases htrue
    | error status => exact fun _ => ⟨status, rfl⟩

/-- A commit that can not be written takes eighty off the path after adding forty, and for a grant
of zero erases the total of zero of another one. A compaction that fails comes after the admission
it reports as failed. -/
theorem traced_boundCore :
    let uncommitted := boundCore 1000 [.synced, .lost]
    let uncompacted := boundCore 1 [.synced, .synced, .lost]
    ((uncommitted.admitLocked (boundRequest 2 40) {}).1.toBool = false ∧
        uncommitted.ledger.admittedOnPath 7 = 60 ∧
        (uncommitted.admitLocked (boundRequest 2 40) {}).2.ledger.admittedOnPath 7 = 20) ∧
      (uncompacted.admitLocked (boundRequest 2 40) {}).1.toBool = false ∧
        uncompacted.ledger.holds 2 = false ∧
        (uncompacted.admitLocked (boundRequest 2 40) {}).2.ledger.holds 2 = true ∧
        (spentCore.admitLocked spentRequest {}).1.toBool = false ∧
        spentCore.ledger.totals[(1 : ResourceId)]? = some 0 ∧
        (spentCore.admitLocked spentRequest {}).2.ledger.totals[(1 : ResourceId)]? = none := by
  decide +kernel

end Examples

end EngineCore

end AdmissionFabric
