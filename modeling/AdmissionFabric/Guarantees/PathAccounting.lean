import AdmissionFabric.Durable.RecordCodec
import AdmissionFabric.Engine.LedgerRuns
import AdmissionFabric.Engine.PathLoad
import AdmissionFabric.Guarantees.PathBinding

/-!
# The load on a path

The engine compares what a path has admitted with the capacity that the catalog reports for it.
The comparison is worth as much as the total: reservations add a grant once, releases take the sum
over all resources of the decision off, so the release of a decision on several resources makes
the total smaller than the load, or wraps it around. A grant whose commit is not written is
released again in the same way.

In runs that release nothing but faithful decisions the totals are exact, and an admission that
selects a path leaves no more load on it than it can carry, unless it was granted nothing at all
on a path that the catalog has made smaller than its load.
-/

namespace AdmissionFabric

open AdmittedLoadLedger Authority

theorem AdmittedLoadLedger.growth_pathExact : LedgerGrowth PathExact where
  empty := .empty
  reserve h hreserve := h.reserve hreserve
  setFlags flag h := h.setFlags flag

namespace EngineCore

variable {claim : ClaimContext} {grant : Grant} {disk : List DiskOutcome} {core core' : EngineCore}

/-! ### Releases -/

/-- The totals of the paths are exact unless something unfaithful has been released. -/
structure PathSafe (start : AdmittedLoadLedger) (core : EngineCore) : Prop where
  faithful : ∀ d, Faithful (start.held d) → Faithful (core.ledger.held d)
  exact_of_held : (∀ d, ¬ Faithful (start.held d) → core.ledger.holds d = true) →
    core.ledger.PathExact

theorem PathSafe.of_ledger {start : AdmittedLoadLedger} (h : core.PathSafe start)
    (hledger : core'.ledger = core.ledger) : core'.PathSafe start := by
  constructor
  · rw [hledger]
    exact h.faithful
  · rw [hledger]
    exact h.exact_of_held

theorem PathSafe.release {start ledger : AdmittedLoadLedger} (h : core.PathSafe start)
    {d : AdmissionDecisionId} {released : List LedgerEntry}
    (hrelease : core.ledger.release d = .ok (released, ledger))
    (hledger : core'.ledger = ledger) : core'.PathSafe start := by
  obtain ⟨-, -, -, hwithout⟩ := release_eq_ok_iff.mp hrelease
  constructor
  · intro d' hd'
    rw [hledger, hwithout, held_without]
    split
    · simp [Faithful]
    · exact h.faithful d' hd'
  · -- what is released is not held any more, so it was faithful at the start
    intro hheld
    rw [hledger] at hheld ⊢
    have hgone : ledger.holds d = false := by
      rw [hwithout, holds_eq_false_iff,
        getElem?_byDecision_without, if_pos rfl]
    have hfaithful : Faithful (start.held d) :=
      not_not.mp fun hunfaithful => absurd (hheld d hunfaithful) (by simp [hgone])
    have hexact := h.exact_of_held fun d' hd' =>
      holds_of_release hrelease (hheld d' hd')
    exact hexact.release (h.faithful d hfaithful) hrelease

theorem housekeeping_pathSafe (start : AdmittedLoadLedger) :
    Housekeeping (fun _ => True) (PathSafe start) where
  release core d reason explanation _ h := by
    generalize hcall : core.releaseDecisionLocked d reason .revoked explanation = outcome
    cases releaseDecisionLocked_effect hcall with
    | unheld _ | unwritten _ _ | stuck _ _ _ => exact h.of_ledger rfl
    | unmarked _ _ hrelease _ | released _ _ hrelease _ => exact h.release hrelease rfl
  mark _ _ _ _ _ h := h.of_ledger rfl
  note _ _ _ h := h.of_ledger rfl
  clearFlags core h :=
    { faithful := fun d hd => by
        change Faithful ((core.ledger.setFlags false).held d)
        rw [held_setFlags]
        exact (h.faithful d hd).setFlags false
      exact_of_held := fun hheld => (h.exact_of_held fun d hd => by
        rw [← holds_setFlags core.ledger false]
        exact hheld d hd).setFlags false }
  steady _ _ hstores _ h := h.of_ledger (congrArg Stores.ledger hstores)

/-! ### Grants -/

/-- The size of a commit record. -/
def commitBytes : Nat := 149

/-- The journal, if one is in use, takes what an admission writes after its intent. -/
def TakesCommit (core : EngineCore) (disk : List DiskOutcome) : Prop :=
  core.journalReady = false ∨
    ∀ journal ∈ core.journal, disk = [] ∧ commitBytes ≤ journal.options.maxPayload

theorem commit_of_takesCommit (h : core.TakesCommit disk) {prepare : PrepareRecord}
    {record : DecisionRecord} {journal : Option Journal}
    (hprepare : writeJournal (core.onDisk disk).journal core.journalReady
      (.admissionPrepare prepare) = (.ok (), journal)) :
    ∃ journal', writeJournal journal core.journalReady (.admissionCommit record) =
      (.ok (), journal') := by
  unfold writeJournal at hprepare ⊢
  cases hjournal : core.journal with
  | none =>
    simp only [onDisk, hjournal, Option.map_none, Prod.mk.injEq, true_and] at hprepare
    subst hprepare
    exact ⟨none, rfl⟩
  | some attached =>
    cases hready : core.journalReady with
    | false =>
      cases journal with
      | none => exact ⟨none, rfl⟩
      | some _ => exact ⟨_, rfl⟩
    | true =>
      obtain ⟨rfl, hbytes⟩ := (h.resolve_left (by simp [hready])) attached hjournal
      simp only [onDisk, hjournal, Option.map_some, hready, ↓reduceIte, Prod.mk.injEq] at hprepare
      obtain ⟨hok, rfl⟩ := hprepare
      obtain ⟨-, hopen, hoptions, hrest⟩ := Journal.of_append_ok hok
      have haccepts : Journal.Accepts _ (.admissionCommit record) :=
        ⟨hopen, by rw [hoptions]; exact (length_encode_decision record).trans_le hbytes⟩
      have happend := Journal.append_of_disk_nil hrest haccepts
      exact ⟨_, by simp only [↓reduceIte, happend]; rfl⟩

theorem pathExact_grant {request : AdmissionRequest} (h : core.ledger.PathExact)
    (htakes : grant.evidence.path = 0 ∨ core.TakesCommit disk) :
    ((core.onDisk disk).consumeIdentity.finishAdmission
      ((core.onDisk disk).admission request claim grant) request
        (amountsOf grant)).2.ledger.PathExact := by
  generalize hcall : (core.onDisk disk).consumeIdentity.finishAdmission _ _ _ = outcome
  cases finishAdmission_effect hcall with
  | unprepared _ => exact h
  | unreserved _ hreserve => exact h.reserve hreserve
  | @uncommitted status journal journal' ledger hprepare hreserve hcommit =>
    have hexact := h.reserve hreserve
    refine undone_induction (P := AdmittedLoadLedger.PathExact) hexact fun _ released hrelease => ?_
    refine hexact.release ?_ hrelease
    rcases htakes with hpath | htakes
    · obtain ⟨-, pathTotals, -, rfl⟩ := reserve_eq_ok_iff.mp hreserve
      rw [held_withReservation]
      exact faithful_newEntries_of_path hpath
    · obtain ⟨_, hwritten⟩ := commit_of_takesCommit htakes hprepare
      exact absurd (hcommit.symm.trans hwritten) (by simp)
  | committed _ hreserve _ =>
    rw [compactIfNeededLocked_snd]
    exact h.reserve hreserve

theorem ledger_refuse (core : EngineCore) (request : AdmissionRequest) (claim : ClaimContext)
    (reason : Refusal) (evidence : Option Evidence) (recordAttempt : Bool) :
    (core.refuse request claim reason evidence recordAttempt).2.ledger = core.ledger := by
  rw [refuse, answer_snd]
  generalize hcall : core.consumeIdentity.finishRefusal _ _ _ = outcome
  cases finishRefusal_effect hcall <;> rfl

theorem path_of_verdict {request : AdmissionRequest}
    (h : core.verdict request claim = .grant grant) (hnil : request.pathCandidates = []) :
    grant.evidence.path = 0 := by
  obtain ⟨selection, ceiling, binding, hresolve, -, -, hselected, -⟩ :=
    evaluate_eq_ok (verdict_eq_grant h).2.2.2
  obtain ⟨-, -, -, hselect, -⟩ := resolve_eq_ok_iff.mp hresolve
  rw [selectPath, if_pos hnil] at hselect
  split at hselect
  · cases hselect
  · rw [hselected, ← Except.ok.inj hselect]

theorem pathExact_admitLocked (h : core.ledger.PathExact) {request : AdmissionRequest}
    (htakes : request.pathCandidates = [] ∨ core.TakesCommit disk) :
    ((core.onDisk disk).admitLocked request claim).2.ledger.PathExact := by
  unfold admitLocked
  cases hverdict : (core.onDisk disk).verdict request claim with
  | refuse reason evidence recordAttempt | retired reason =>
    simp only [ledger_refuse]
    exact h
  | replay decision => exact h
  | grant grant =>
    simp only [answer_snd]
    exact pathExact_grant h (htakes.imp_left (path_of_verdict hverdict))

/-! ### Runs -/

/-- No unfaithful decision is released, and a grant on a path is committed. -/
def ReleasesFaithfully (core : EngineCore) : Event → Prop
  | .call ⟨.admitRequest request _, disk⟩ =>
    request.pathCandidates = [] ∨ core.TakesCommit disk
  | .call call => core.ledger.KeepsUnfaithful (core.after call).ledger
  | .restart _ _ _ => True

theorem pathExact_follow (h : core.ledger.PathExact) {event : Event}
    (hguard : core.ReleasesFaithfully event) : (core.follow event).ledger.PathExact := by
  match event with
  | .restart config surviving disk =>
    exact AdmittedLoadLedger.growth_pathExact.restart core config surviving disk
  | .call ⟨operation, disk⟩ =>
    by_cases hrequest : ∃ request claim, operation = .admitRequest request claim
    · obtain ⟨request, claim, rfl⟩ := hrequest
      exact pathExact_admitLocked h hguard
    · have hkeeps : core.ledger.KeepsUnfaithful (core.after ⟨operation, disk⟩).ledger := by
        cases operation <;> first | exact hguard | exact absurd ⟨_, _, rfl⟩ hrequest
      have hsafe : (core.onDisk disk).PathSafe core.ledger := ⟨fun _ hd => hd, fun _ => h⟩
      have hafter := (housekeeping_pathSafe core.ledger).perform
        (fun _ _ hstores hsafe => hsafe.of_ledger (congrArg Stores.ledger hstores)) hsafe
        (fun _ _ => trivial) (fun _ _ heq => absurd ⟨_, _, heq⟩ hrequest)
        fun _ => hsafe.of_ledger (by rw [compactLocked_snd])
      exact hafter.exact_of_held fun d hd => hkeeps.holds hd

/-! ### Admissions -/

theorem granted_le_of_verdict {request : AdmissionRequest}
    (h : core.verdict request claim = .grant grant) (hpath : grant.evidence.path ≠ 0) :
    (∃ candidate ∈ request.pathCandidates, candidate.path = grant.evidence.path) ∧
      ∃ fact, core.findPath grant.evidence.path = some fact ∧
        grant.granted ≤ pathFree core.ledger fact grant.evidence.path := by
  obtain ⟨selection, ceiling, binding, hresolve, hcap, hgrant, hselected, -⟩ :=
    evaluate_eq_ok (verdict_eq_grant h).2.2.2
  obtain ⟨-, -, -, hselect, -⟩ := resolve_eq_ok_iff.mp hresolve
  have hcandidates : request.pathCandidates ≠ [] := fun hnil => hpath (path_of_verdict h hnil)
  rw [selectPath, if_neg hcandidates] at hselect
  rcases searchPaths_eq_ok hselect with
    ⟨candidate, hcandidate, fact, hfind, -, hchosen, -, hbound⟩ | ⟨-, -, hnone, -⟩
  · rw [hselected, hchosen]
    have hfact : core.selectedFact selection = some fact := by
      rw [selectedFact, if_pos hbound, hchosen, hfind]
    obtain ⟨c, -, -, hid⟩ := findPath_eq_some_iff.mp hfind
    exact ⟨⟨candidate, mem_of_mem_permittedCandidates hcandidate, rfl⟩, fact, hfind,
      hid ▸ granted_le_pathFree hcap hgrant hfact⟩
  · exact absurd (hselected.trans hnone) hpath

theorem addPath_of_verdict (h : core.verdict request claim = .grant grant) :
    core.ledger.addPath grant.evidence.path (amountsOf grant) ≠ none := by
  unfold addPath
  split
  · nofun
  · rename_i hpath
    obtain ⟨-, fact, -, hfree⟩ := granted_le_of_verdict h hpath
    rw [pathFree, admittedOnPath, if_neg hpath, UInt64.le_iff_toNat_le,
      toNat_satSub] at hfree
    have hcapacity := fact.pathUsableCapacity.toNat_lt
    have htotal := (core.ledger.pathTotals.getD grant.evidence.path 0).toNat_lt
    rw [ne_eq, Option.map_eq_none_iff, addU64_eq_none_iff, amountsOf]
    cases grant.targets with
    | nil => simpa using htotal
    | cons r rest =>
      simp only [List.map_cons, List.head?_cons, Option.map_some, Option.getD_some]
      omega

/-- The request demands something, or none of its paths carries more than the catalog allows. -/
def Roomy (core : EngineCore) (request : AdmissionRequest) : Prop :=
  request.rate.minimum ≠ 0 ∨ ∀ candidate ∈ request.pathCandidates,
    (core.findPath candidate.path).all fun fact =>
      core.ledger.pathLoad candidate.path ≤ fact.pathUsableCapacity.toNat

theorem pathLoad_le_of_admitLocked {request : AdmissionRequest} {decision : AdmissionDecision}
    (hexact : core.ledger.PathExact) (hroomy : core.Roomy request)
    (h : core.admitLocked request claim = (.ok decision, core'))
    (hadmitting : decision.outcome.isAdmitting = true)
    (hfresh : decision.idempotentReplay = false) (hpath : decision.selectedPath ≠ 0) :
    ∃ fact, core'.findPath decision.selectedPath = some fact ∧
      core'.ledger.pathLoad decision.selectedPath ≤ fact.pathUsableCapacity.toNat := by
  obtain ⟨grant, hverdict, rfl⟩ := admitLocked_fresh h hadmitting hfresh
  obtain ⟨⟨candidate, hcandidate, hdeclared⟩, fact, hfind, hfree⟩ :=
    granted_le_of_verdict hverdict hpath
  have hminimum : request.rate.minimum ≤ grant.granted := by
    obtain ⟨selection, ceiling, binding, -, -, hgrant, -⟩ :=
      evaluate_eq_ok (verdict_eq_grant hverdict).2.2.2
    exact (decideGrant_eq_ok hgrant).2.1
  have hannounced : core'.announced = core.announced := by
    have hkept := (transactional_announced core.announced).admitLocked rfl request claim
    rwa [h] at hkept
  have hfind' : core'.findPath grant.evidence.path = some fact := by
    rw [← hfind, findPath, findPath,
      show core'.paths = core.paths from congrArg Announced.paths hannounced]
  refine ⟨fact, hfind', ?_⟩
  -- the new load is the old one and the grant
  obtain ⟨hcheck, pathTotals, -, hledger⟩ := reserve_eq_ok_iff.mp
    (reserve_of_admitLocked hverdict h)
  obtain ⟨-, hnew, hne, -⟩ := checkReserve_eq_ok_iff.mp hcheck
  have hgrants : (((grant.targets.map fun r => (r, grant.granted)).head?.map Prod.snd).getD 0) =
      grant.granted := by
    cases htargets : grant.targets with
    | nil => simp [htargets] at hne
    | cons r rest => rfl
  have hload : core'.ledger.pathLoad grant.evidence.path =
      grant.granted.toNat + core.ledger.pathLoad grant.evidence.path := by
    rw [hledger, pathLoad_withReservation hnew,
      grantOn_newEntries, hgrants]
    exact congrArg (· + _) (if_pos rfl)
  change core'.ledger.pathLoad grant.evidence.path ≤ _
  have htotal := hexact grant.evidence.path hpath
  rw [pathFree, UInt64.le_iff_toNat_le, toNat_satSub, htotal] at hfree
  rw [UInt64.le_iff_toNat_le] at hminimum
  rcases hroomy with hdemand | hroom
  · have hpos : request.rate.minimum.toNat ≠ 0 := fun h => hdemand (UInt64.toNat_inj.mp h)
    omega
  · have hcarried := hroom candidate hcandidate
    rw [hdeclared, hfind, Option.all_some, decide_eq_true_eq] at hcarried
    omega

open TransitionSystem (Reachable)

/-- In every run that releases nothing but faithful decisions, the total of every path is the sum
of the live grants bound to it, and an admission that selects a path leaves no more on it than
the catalog allows. -/
theorem pathExact_of_reachable
    (h : Reachable Started EngineCore.follow ReleasesFaithfully core) :
    core.ledger.PathExact ∧
      ∀ request claim disk decision core', core.Roomy request →
        (core.onDisk disk).admitLocked request claim = (.ok decision, core') →
        decision.outcome.isAdmitting = true → decision.idempotentReplay = false →
        decision.selectedPath ≠ 0 →
        ∃ fact, core'.findPath decision.selectedPath = some fact ∧
          core'.ledger.pathLoad decision.selectedPath ≤ fact.pathUsableCapacity.toNat := by
  have hexact : core.ledger.PathExact := by
    exact h.invariant (I := fun core => core.ledger.PathExact)
      (fun _ => AdmittedLoadLedger.growth_pathExact.started) fun _ _ h => pathExact_follow h
  refine ⟨hexact, fun request claim disk decision core' hroomy hcall hadmitting hfresh hpath => ?_⟩
  have hexact' : (core.onDisk disk).ledger.PathExact := hexact
  exact pathLoad_le_of_admitLocked hexact' hroomy hcall hadmitting hfresh hpath

section Examples

open SmallFabric
open TransitionSystem (run Allowed)

/-- Sixty and forty are admitted on the path, then the forty are revoked. -/
def carriedRun (resources : List ResourceId) : List Event :=
  Event.calls (announce [known 1 1 1000, known 2 1 1000] ++ [.publishPaths (pathThrough resources),
    .admitRequest (boundRequest 1 60) {}, .admitRequest (boundRequest 2 40) {},
    .revoke 2 .operatorRequest {}])

/-- The engine after that run. -/
def carriedCore (resources : List ResourceId) : EngineCore :=
  run EngineCore.follow (fresh {}) (carriedRun resources)

instance (core : EngineCore) (disk : List DiskOutcome) : Decidable (core.TakesCommit disk) := by
  unfold TakesCommit
  infer_instance

instance (core : EngineCore) (event : Event) : Decidable (core.ReleasesFaithfully event) := by
  rcases event with ⟨operation, disk⟩ | ⟨config, surviving, disk⟩
  · induction operation using Operation.casesOn with
    | admitRequest request claim => exact inferInstanceAs (Decidable (_ ∨ _))
    | _ => exact inferInstanceAs (Decidable (core.ledger.KeepsUnfaithful _))
  · exact instDecidableTrue

/-- On a path over one resource the total is exact, and the next admission respects it. -/
theorem pathExact_carriedCore : (carriedCore [1]).ledger.PathExact ∧ ∃ decision core',
    ((carriedCore [1]).onDisk []).admitLocked (boundRequest 3 40) {} = (.ok decision, core') ∧
      decision.selectedPath = 7 ∧ core'.ledger.pathLoad 7 ≤ 100 := by
  have hallowed : Allowed follow ReleasesFaithfully (fresh {}) (carriedRun [1]) := by
    decide +kernel
  have hstart : Reachable Started follow ReleasesFaithfully (fresh {}) :=
    .init ⟨{}, Or.inl rfl⟩
  obtain ⟨hexact, hadmission⟩ := pathExact_of_reachable (hstart.run hallowed)
  have hgrants : ((carriedCore [1]).onDisk []).grantsFresh (boundRequest 3 40) {} = true := by
    decide +kernel
  have hselects : (((carriedCore [1]).onDisk []).admitLocked (boundRequest 3 40)
      {}).1.toOption.all (·.selectedPath = 7) = true := by decide +kernel
  have hlisted : (((carriedCore [1]).onDisk []).admitLocked (boundRequest 3 40) {}).2.findPath 7 =
      (pathThrough [1]).paths.head? := by decide +kernel
  obtain ⟨decision, core', hcall, hadmitting, hfresh⟩ := grantsFresh_eq_true_iff.mp hgrants
  have hpath : decision.selectedPath = 7 := by simpa [hcall, Except.toOption] using hselects
  obtain ⟨fact, hfind, hle⟩ := hadmission _ _ [] decision core' (Or.inl (by decide)) hcall
    hadmitting hfresh (by rw [hpath]; decide)
  rw [hcall] at hlisted
  rw [hpath, hlisted] at hfind
  obtain rfl := Option.some.inj hfind
  exact ⟨hexact, decision, core', hcall, hpath, hpath ▸ hle⟩

/-- On a path over two resources the revocation takes eighty off the total, and the path then
takes eighty on top of sixty. -/
theorem not_pathExact_carriedCore :
    (carriedCore [1, 2]).ledger.admittedOnPath 7 = 20 ∧
      (carriedCore [1, 2]).ledger.pathLoad 7 = 60 ∧ ¬ (carriedCore [1, 2]).ledger.PathExact ∧
      (carriedCore [1, 2]).grantsFresh (boundRequest 3 80) {} = true ∧
      ((carriedCore [1, 2]).admitLocked (boundRequest 3 80) {}).2.ledger.pathLoad 7 = 140 := by
  have htotal : (carriedCore [1, 2]).ledger.admittedOnPath 7 = 20 := by decide +kernel
  have hload : (carriedCore [1, 2]).ledger.pathLoad 7 = 60 := by decide +kernel
  refine ⟨htotal, hload, fun hexact => ?_, by decide +kernel, by decide +kernel⟩
  have heq := hexact 7 (by decide)
  rw [htotal, hload] at heq
  exact absurd heq (by decide)

end Examples

end EngineCore

end AdmissionFabric
