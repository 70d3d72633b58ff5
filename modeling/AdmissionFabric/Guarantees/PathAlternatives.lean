import AdmissionFabric.Guarantees.PathChoice

/-!
# What the choice of a path overlooks

The path stage commits to the first candidate that passes a test of its own, and the capacity stage
then evaluates the request over that path alone. The two tests are not the same. The path stage
compares the minimum with the allowance of each resource and does not look at the load admitted on
it, and it does not ask for the desired rate where a request may not be degraded. A request can so
be refused for lack of capacity over the path it is committed to, while another of its candidates
would have carried it.
-/

namespace AdmissionFabric

variable {candidate : PathCandidate}

namespace AdmissionRequest

/-- The same request with a single candidate. -/
def reducedTo (request : AdmissionRequest) (candidate : PathCandidate) : AdmissionRequest :=
  { request with pathCandidates := [candidate] }

theorem checkPathCandidates_of_mem {seen : List PathId} {candidates : List PathCandidate}
    (h : checkPathCandidates seen candidates = .ok ()) (hmem : candidate ∈ candidates) :
    checkPathCandidates [] [candidate] = .ok () := by
  induction candidates generalizing seen with
  | nil => cases hmem
  | cons c rest ih =>
    simp only [checkPathCandidates, check_bind_eq_ok_iff, rejectIf_eq_ok_iff] at h
    rcases List.mem_cons.mp hmem with rfl | hmem
    · simp only [checkPathCandidates, check_bind_eq_ok_iff, rejectIf_eq_ok_iff]
      exact ⟨h.1, List.not_mem_nil, h.2.2.1, trivial⟩
    · exact ih h.2.2.2 hmem

theorem validate_reducedTo {request : AdmissionRequest} (h : request.validate = .ok ())
    (hrequired : request.requiredPath = 0) (hmem : candidate ∈ request.pathCandidates) :
    (request.reducedTo candidate).validate = .ok () := by
  simp only [validate, check_bind_eq_ok_iff, rejectIf_eq_ok_iff] at h ⊢
  obtain ⟨h1, h2, h3, h4, h5, h6, h7, h8, h9, h10, h11, -, hcandidates, -, -, -, h17⟩ := h
  exact ⟨h1, h2, h3, h4, h5, h6, h7, h8, h9, h10, h11,
    by simp [reducedTo, Limits.maxPathCandidates],
    checkPathCandidates_of_mem hcandidates hmem, by simp [reducedTo],
    by simp [reducedTo, hrequired], by simp [reducedTo, hrequired], h17⟩

end AdmissionRequest

namespace Authority

variable {selection : PathSelection}

/-! ### The committed path -/

/-- Room for the minimum, and for the desired rate unless the request may be degraded. -/
def RoomOn (authority : Authority) (ledger : AdmittedLoadLedger) (request : AdmissionRequest)
    (resource : ResourceId) : Prop :=
  ∃ free ∈ authority.freeOn ledger resource, request.rate.minimum ≤ free ∧
    (authority.degradeAllowed request = true ∨ request.rate.desired ≤ free)

/-- The targets over a path have room for a request, and so has the path. -/
structure Carries (authority : Authority) (ledger : AdmittedLoadLedger)
    (request : AdmissionRequest) (fact : PathAdmissionFact) : Prop where
  targets : targetsOf request fact.resources ≠ []
  room : ∀ r ∈ targetsOf request fact.resources, authority.RoomOn ledger request r
  path : ¬ authority.Exhausted ledger request fact →
    request.rate.minimum ≤ pathFree ledger fact fact.path ∧
      (authority.degradeAllowed request = true ∨
        request.rate.desired ≤ pathFree ledger fact fact.path)

/-- The path that the candidates commit a request to: that of the first usable one, or, when none is
usable or lacks evidence, of the first one that lacks nothing but capacity. -/
def Committed (authority : Authority) (ledger : AdmittedLoadLedger) (request : AdmissionRequest)
    (candidates : List PathCandidate) (fact : PathAdmissionFact) : Prop :=
  (∃ earlier candidate later, candidates = earlier ++ candidate :: later ∧
    (∀ c ∈ earlier, ¬ authority.Usable ledger request c) ∧
    authority.findPath candidate.path = some fact ∧ authority.Eligible request fact ∧
    ¬ authority.Exhausted ledger request fact) ∨
  (∀ c ∈ candidates, ¬ authority.Usable ledger request c ∧ ¬ authority.Obscure c) ∧
    authority.firstEligible request candidates = some fact

variable {authority : Authority} {ledger : AdmittedLoadLedger} {request : AdmissionRequest}
  {candidates : List PathCandidate} {fact : PathAdmissionFact}

theorem blocked_iff : authority.Blocked ledger request candidates ↔
    ∀ c ∈ candidates, ¬ authority.Usable ledger request c ∧ ¬ authority.Obscure c := by
  refine forall₂_congr fun c _ => ?_
  rw [Usable, Obscure]
  cases authority.findPath c.path with
  | none => simp
  | some fact =>
    simp only [Option.all_some, decide_eq_true_eq, Option.some.injEq, exists_eq_left', not_and,
      not_not]
    exact and_comm

theorem of_firstEligible (h : authority.firstEligible request candidates = some fact) :
    ∃ candidate ∈ candidates, authority.findPath candidate.path = some fact ∧
      authority.Eligible request fact := by
  obtain ⟨candidate, hmem, hfilter⟩ := List.exists_of_findSome?_eq_some h
  rw [Option.filter_eq_some_iff, decide_eq_true_eq] at hfilter
  exact ⟨candidate, hmem, hfilter⟩

theorem Committed.eligible (h : authority.Committed ledger request candidates fact) :
    authority.Eligible request fact := by
  rcases h with ⟨-, -, -, -, -, -, heligible, -⟩ | ⟨-, hfirst⟩
  · exact heligible
  · obtain ⟨-, -, -, heligible⟩ := of_firstEligible hfirst
    exact heligible

/-- Whether the path stage selected the committed path. -/
def Selects (authority : Authority) (ledger : AdmittedLoadLedger) (request : AdmissionRequest)
    (selection : PathSelection) (fact : PathAdmissionFact) : Prop :=
  selection.traversal = fact.resources ∧
    ∀ found, found ∈ authority.selectedFact selection ↔
      found = fact ∧ ¬ authority.Exhausted ledger request fact

theorem selects_fallback (h : authority.Blocked ledger request candidates)
    (hfirst : authority.firstEligible request candidates = some fact)
    (htraversal : selection.traversal = fact.resources) (hnone : selection.pathSelected = false) :
    authority.Selects ledger request selection fact := by
  obtain ⟨candidate, hmem, hfind, heligible⟩ := of_firstEligible hfirst
  have hexhausted : authority.Exhausted ledger request fact := by
    by_contra hroom
    exact (blocked_iff.mp h candidate hmem).1 ⟨fact, hfind, heligible, hroom⟩
  exact ⟨htraversal, by simp [selectedFact, hnone, hexhausted]⟩

theorem searchPaths_isOk_of_usable (hmem : candidate ∈ candidates)
    (h : authority.Usable ledger request candidate) :
    ∃ selection, authority.searchPaths ledger request {} candidates = .ok selection := by
  classical
  have hsome : (candidates.find? fun c => decide (authority.Usable ledger request c)).isSome =
      true := List.find?_isSome.mpr ⟨candidate, hmem, decide_eq_true h⟩
  obtain ⟨first, hfirst⟩ := Option.isSome_iff_exists.mp hsome
  obtain ⟨husable, earlier, later, rfl, hearlier⟩ := List.find?_eq_some_iff_append.mp hfirst
  obtain ⟨fact, hfind, heligible, hroom⟩ := of_decide_eq_true husable
  exact ⟨_, searchPaths_of_usable (fun c hc => by simpa using hearlier c hc) hfind heligible hroom
    {}⟩

theorem exists_committed (h : authority.searchPaths ledger request {} candidates = .ok selection) :
    ∃ fact, authority.Committed ledger request candidates fact ∧
      authority.Selects ledger request selection fact := by
  cases hselected : selection.pathSelected with
  | true =>
    obtain ⟨earlier, candidate, later, fact, hsplit, hearlier, hfind, ⟨heligible, hroom⟩, rfl⟩ :=
      searchPaths_selected_iff.mp ⟨h, hselected⟩
    refine ⟨fact, .inl ⟨earlier, candidate, later, hsplit, hearlier, hfind, heligible, hroom⟩, rfl,
      fun found => ?_⟩
    simp [selectedFact, hfind, hroom, eq_comm]
  | false =>
    rcases searchPaths_eq_ok h with ⟨-, -, -, -, -, -, -, htrue⟩ | ⟨-, hblocked, -, -, hfallback⟩
    · rw [hselected] at htrue
      cases htrue
    · obtain ⟨fact, hfirst, htraversal⟩ : ∃ fact,
          authority.firstEligible request candidates = some fact ∧
            fact.resources = selection.traversal := by
        simpa [fallback] using hfallback
      exact ⟨fact, .inr ⟨blocked_iff.mp hblocked, hfirst⟩,
        selects_fallback hblocked hfirst htraversal.symm hselected⟩

theorem Committed.exists_selection (h : authority.Committed ledger request candidates fact) :
    ∃ selection, authority.searchPaths ledger request {} candidates = .ok selection ∧
      authority.Selects ledger request selection fact := by
  rcases h with ⟨earlier, candidate, later, rfl, hearlier, hfind, heligible, hroom⟩ |
    ⟨hnone, hfirst⟩
  · refine ⟨_, searchPaths_of_usable hearlier hfind heligible hroom {}, rfl, fun found => ?_⟩
    simp [selectedFact, hfind, hroom, eq_comm]
  · have hblocked := blocked_iff.mpr hnone
    obtain ⟨selection, hsearch, htraversal, -, hselected⟩ := searchPaths_blocked rfl hblocked
      (show authority.fallback request {} candidates = some fact.resources by
        simp [fallback, hfirst])
    exact ⟨selection, hsearch, selects_fallback hblocked hfirst htraversal hselected⟩

theorem evaluate_isOk_iff (hminimum : request.rate.minimum ≤ request.rate.desired)
    (hmaximum : request.rate.desired ≤ request.rate.maximum)
    (hselect : authority.selectPath ledger request =
      authority.searchPaths ledger request {} candidates) :
    (∃ grant, authority.evaluate ledger request = .ok grant) ↔
      authority.checkReadiness = .ok () ∧ authority.checkExpectations request = .ok () ∧
        authority.checkPolicy request = .ok () ∧
        ∃ fact, authority.Committed ledger request candidates fact ∧
          authority.Carries ledger request fact := by
  constructor
  · rintro ⟨grant, hgrant⟩
    obtain ⟨selection, ceiling, binding, hresolve, hcap, hdecide, -⟩ := evaluate_eq_ok hgrant
    obtain ⟨hready, hexpected, hpermitted, hselection, htargets, hne⟩ :=
      resolve_eq_ok_iff.mp hresolve
    rw [hselect] at hselection
    obtain ⟨fact, hcommitted, htraversal, hselected⟩ := exists_committed hselection
    rw [htraversal] at htargets
    -- what is granted is at least the minimum, and the desired rate unless it is degraded
    have hgranted : ∀ free, grant.granted ≤ free → request.rate.minimum ≤ free ∧
        (authority.degradeAllowed request = true ∨ request.rate.desired ≤ free) := by
      intro free hfree
      refine ⟨UInt64.le_trans (decideGrant_eq_ok hdecide).2.1 hfree, ?_⟩
      exact (degraded_or_desired_le hdecide).imp id fun h => UInt64.le_trans h hfree
    refine ⟨hready, hexpected, hpermitted, fact, hcommitted, htargets ▸ hne, fun r hr => ?_,
      fun hroom => ?_⟩
    · obtain ⟨free, hfree, hle⟩ := granted_le_free hgrant (htargets ▸ hr)
      exact ⟨free, hfree, hgranted free hle⟩
    · exact hgranted _ (granted_le_pathFree hcap hdecide ((hselected fact).mpr ⟨rfl, hroom⟩))
  · rintro ⟨hready, hexpected, hpermitted, fact, hcommitted, hcarries⟩
    obtain ⟨selection, hselection, htraversal, hselected⟩ := hcommitted.exists_selection
    have hresolve : authority.resolve ledger request =
        .ok (selection, targetsOf request fact.resources) :=
      resolve_eq_ok_iff.mpr ⟨hready, hexpected, hpermitted, hselect.trans hselection,
        by rw [htraversal], hcarries.targets⟩
    obtain ⟨grant, hgrant, -⟩ := evaluate_of_room hresolve hminimum hmaximum hcarries.room
      fun found hfound => by
        obtain ⟨rfl, hroom⟩ := (hselected found).mp hfound
        exact hcarries.path hroom
    exact ⟨grant, hgrant⟩

theorem Committed.unique {fact' : PathAdmissionFact}
    (h : authority.Committed ledger request candidates fact)
    (h' : authority.Committed ledger request candidates fact') : fact = fact' := by
  obtain ⟨selection, hsearch, -, hselected⟩ := h.exists_selection
  obtain ⟨selection', hsearch', -, hselected'⟩ := h'.exists_selection
  obtain rfl := Except.ok.inj (hsearch.symm.trans hsearch')
  by_cases hroom : authority.Exhausted ledger request fact
  · rcases h with ⟨-, -, -, -, -, -, -, hnot⟩ | ⟨-, hfirst⟩
    · exact absurd hroom hnot
    rcases h' with ⟨-, -, -, -, -, -, -, hnot⟩ | ⟨-, hfirst'⟩
    · exact ((hselected fact').mp ((hselected' fact').mpr ⟨rfl, hnot⟩)).1.symm
    · exact Option.some.inj (hfirst.symm.trans hfirst')
  · exact ((hselected' fact).mp ((hselected fact).mpr ⟨rfl, hroom⟩)).1

/-! ### A single candidate -/

theorem committed_singleton :
    authority.Committed ledger request [candidate] fact ↔
      authority.findPath candidate.path = some fact ∧ authority.Eligible request fact := by
  constructor
  · rintro (⟨earlier, c, later, hsplit, -, hfind, heligible, -⟩ | ⟨-, hfirst⟩)
    · obtain ⟨rfl, rfl, rfl⟩ : earlier = [] ∧ c = candidate ∧ later = [] := by
        cases earlier <;> simp_all
      exact ⟨hfind, heligible⟩
    · obtain ⟨c, hmem, hfind, heligible⟩ := of_firstEligible hfirst
      exact ⟨List.mem_singleton.mp hmem ▸ hfind, heligible⟩
  · rintro ⟨hfind, heligible⟩
    by_cases hroom : authority.Exhausted ledger request fact
    · refine .inr ⟨List.forall_mem_singleton.mpr ⟨?_, ?_⟩, ?_⟩
      · rintro ⟨found, hfound, -, hnot⟩
        exact hnot (Option.some.inj (hfind.symm.trans hfound) ▸ hroom)
      · rintro ⟨found, hfound, hundetermined⟩
        exact hundetermined.not_eligible (Option.some.inj (hfind.symm.trans hfound) ▸ heligible)
      · simp [firstEligible, hfind, heligible]
    · exact .inl ⟨[], candidate, [], rfl, by simp, hfind, heligible, hroom⟩

theorem checkExpectations_reducedTo (h : authority.checkExpectations request = .ok ())
    (hmem : candidate ∈ request.pathCandidates) :
    authority.checkExpectations (request.reducedTo candidate) = .ok () := by
  have hne : request.pathCandidates ≠ [] := List.ne_nil_of_mem hmem
  simp only [checkExpectations, check_bind_eq_ok_iff, forM_eq_ok_iff] at h ⊢
  obtain ⟨h1, h2, h3, h4, h5, hpath, h7, hcandidates, h9⟩ := h
  refine ⟨h1, h2, h3, h4, h5, ?_, h7, ?_, h9⟩
  · rw [checkPathExpectation, if_pos (Or.inr hne)] at hpath
    rw [checkPathExpectation, if_pos (Or.inr (by simp [AdmissionRequest.reducedTo]))]
    exact hpath
  · exact List.forall_mem_singleton.mpr (hcandidates candidate hmem)

theorem evaluate_reducedTo_isOk_iff (hminimum : request.rate.minimum ≤ request.rate.desired)
    (hmaximum : request.rate.desired ≤ request.rate.maximum)
    (hrequired : request.requiredPath = 0) :
    (∃ grant, authority.evaluate ledger (request.reducedTo candidate) = .ok grant) ↔
      authority.checkReadiness = .ok () ∧
        authority.checkExpectations (request.reducedTo candidate) = .ok () ∧
        authority.checkPolicy request = .ok () ∧
        ∃ fact, authority.findPath candidate.path = some fact ∧ authority.Eligible request fact ∧
          authority.Carries ledger request fact := by
  have hselect : authority.selectPath ledger (request.reducedTo candidate) =
      authority.searchPaths ledger (request.reducedTo candidate) {} [candidate] := by
    have hpermitted :
        authority.permittedCandidates (request.reducedTo candidate) = [candidate] := by
      have hnone : ¬ (request.reducedTo candidate).requiredPath ≠ 0 := not_not.mpr hrequired
      rw [permittedCandidates, if_neg hnone]
      split <;> rfl
    rw [selectPath, if_neg (by simp [AdmissionRequest.reducedTo]), hpermitted]
  have hgranted : (∃ grant, authority.evaluate ledger (request.reducedTo candidate) = .ok grant) ↔
      _ := evaluate_isOk_iff hminimum hmaximum hselect
  refine hgranted.trans (and_congr_right fun _ => and_congr_right fun _ => and_congr_right fun _ =>
    exists_congr fun fact => ?_)
  rw [committed_singleton, and_assoc]
  exact and_congr_right fun _ => and_congr_right fun _ =>
    ⟨fun h => ⟨h.targets, h.room, h.path⟩, fun h => ⟨h.targets, h.room, h.path⟩⟩

/-! ### Refusals -/

theorem knownCapacity_of_mem_targetsOf (hexpected : authority.checkExpectations request = .ok ())
    (heligible : authority.Eligible request fact) {r : ResourceId}
    (hr : r ∈ targetsOf request fact.resources) : authority.knownCapacity r ≠ none := by
  rcases mem_targetsOf.mp hr with ⟨b, hb, rfl⟩ | hr
  · have hbinding := (checkExpectations_eq_ok_iff.mp hexpected).2 b hb
    unfold checkBinding at hbinding
    cases hfind : authority.findCapacity b.resource with
    | none => simp [hfind] at hbinding
    | some entry =>
      simp only [hfind, check_bind_eq_ok_iff, rejectIf_eq_ok_iff, not_not] at hbinding
      simp [knownCapacity, hfind, hbinding.1]
  · exact heligible.2.1 r hr

theorem forCapacity_of_committed (hready : authority.checkReadiness = .ok ())
    (hexpected : authority.checkExpectations request = .ok ())
    (hpermitted : authority.checkPolicy request = .ok ())
    (hselect : authority.selectPath ledger request =
      authority.searchPaths ledger request {} candidates)
    (hcommitted : authority.Committed ledger request candidates fact)
    (hne : targetsOf request fact.resources ≠ []) :
    FailsWith (fun failure => failure.1.ForCapacity) (authority.evaluate ledger request) := by
  obtain ⟨selection, hselection, htraversal, -⟩ := hcommitted.exists_selection
  have hresolve : authority.resolve ledger request =
      .ok (selection, targetsOf request fact.resources) :=
    resolve_eq_ok_iff.mpr ⟨hready, hexpected, hpermitted, hselect.trans hselection,
      by rw [htraversal], hne⟩
  refine (authority.failsWith_of_resolve ledger request hresolve).imp fun failure h => ?_
  rcases h with h | ⟨-, r, hr, hnone⟩
  · exact h
  · exact absurd hnone (knownCapacity_of_mem_targetsOf hexpected hcommitted.eligible hr)

/-- What is behind a refusal for capacity or path reasons when some candidate is eligible. -/
theorem committed_of_refusal {refusal : Refusal} {evidence : Option Evidence}
    (h : authority.evaluate ledger request = .error (refusal, evidence))
    (hroom : refusal.ForCapacity ∨ refusal.outcome = .rejectPath)
    (hready : authority.checkReadiness = .ok ())
    (hpermitted : authority.checkPolicy request = .ok ())
    (hselect : authority.selectPath ledger request =
      authority.searchPaths ledger request {} candidates) (hmem : candidate ∈ candidates)
    (hfind : authority.findPath candidate.path = some fact)
    (heligible : authority.Eligible request fact) :
    authority.checkExpectations request = .ok () ∧
      ∃ found, authority.Committed ledger request candidates found ∧
        targetsOf request found.resources ≠ [] := by
  have hresolve : ∀ reason, authority.resolve ledger request = .error reason →
      reason.ForCapacity ∨ reason.outcome = .rejectPath := by
    intro reason hreason
    rw [evaluate, hreason] at h
    obtain ⟨rfl, -⟩ := Prod.mk.inj (Except.error.inj h)
    exact hroom
  have hfresh : ∀ reason : Refusal, reason.ForCapacity ∨ reason.outcome = .rejectPath →
      ¬ reason.Stale := by
    rintro reason ((h | h | h) | h) hstale
    all_goals cases h.symm.trans hstale
  have hexpected : authority.checkExpectations request = .ok () := by
    cases hcheck : authority.checkExpectations request with
    | ok _ => rfl
    | error reason =>
      refine absurd (authority.stale_checkExpectations request reason hcheck)
        (hfresh reason (hresolve reason ?_))
      simp [resolve, hready, hcheck, bind, Except.bind]
  refine ⟨hexpected, ?_⟩
  cases hsearch : authority.searchPaths ledger request {} candidates with
  | error reason =>
    have hreason : authority.resolve ledger request = .error reason := by
      simp [resolve, hready, hexpected, hpermitted, hselect, hsearch, bind, Except.bind]
    have hnone : ∀ c ∈ candidates, ¬ authority.Usable ledger request c := by
      intro c hc husable
      obtain ⟨selection, hselection⟩ := searchPaths_isOk_of_usable hc husable
      cases hsearch.symm.trans hselection
    obtain ⟨hstale, hshort, -⟩ := searchPaths_refused_iff hnone
    by_cases hobscure : ∃ c ∈ candidates, authority.Obscure c
    · obtain ⟨constraint, hconstraint⟩ := hstale.mpr hobscure
      obtain rfl := Except.error.inj (hsearch.symm.trans hconstraint)
      exact absurd rfl (hfresh _ (hresolve _ hreason))
    · have hexhausted : authority.Exhausted ledger request fact := by
        by_contra hfree
        exact hnone candidate hmem ⟨fact, hfind, heligible, hfree⟩
      obtain ⟨selection, hselection, -⟩ := hshort.mpr
        ⟨fun c hc hc' => hobscure ⟨c, hc, hc'⟩, candidate, hmem, fact, hfind, heligible, hexhausted⟩
      cases hsearch.symm.trans hselection
  | ok selection =>
    obtain ⟨found, hcommitted, htraversal, -⟩ := exists_committed hsearch
    refine ⟨found, hcommitted, fun hnil => ?_⟩
    -- a request without targets is refused for its contract
    rcases hresolve ⟨.rejectPolicy, _⟩ (by
      simp only [resolve, hready, hexpected, hpermitted, hselect, hsearch, htraversal, hnil, bind,
        Except.bind, rejectIf, ↓reduceIte]
      rfl) with (h | h | h) | h
    all_goals cases h

end Authority

namespace EngineCore

variable {core core' : EngineCore} {request : AdmissionRequest} {claim : ClaimContext}

/-- A candidate that would carry the request on its own is overlooked: the request passes every
check and is evaluated over another path, which does not carry it. -/
structure Overlooks (core : EngineCore) (request : AdmissionRequest) (candidate : PathCandidate) :
    Prop where
  ready : core.checkReadiness = .ok ()
  expected : core.checkExpectations request = .ok ()
  permitted : core.checkPolicy request = .ok ()
  unseen : (core.attempts.classify (probe (request.reducedTo candidate))).disposition = .new
  carried : ∃ fact, core.findPath candidate.path = some fact ∧ core.Eligible request fact ∧
    core.Carries core.ledger request fact
  committed : ∃ fact, core.Committed core.ledger request request.pathCandidates fact ∧
    targetsOf request fact.resources ≠ [] ∧ ¬ core.Carries core.ledger request fact

theorem verdict_of_new (hvalid : request.validate = .ok ())
    (hfence : core.checkFence claim = .ok ())
    (hnew : (core.attempts.classify (probe request)).disposition = .new) :
    (∀ grant, core.evaluate core.ledger request = .ok grant →
      core.verdict request claim = .grant grant) ∧
    ∀ failure, core.evaluate core.ledger request = .error failure →
      core.verdict request claim = .refuse failure.1 failure.2 true := by
  constructor
  · intro grant heval
    simp only [verdict, hvalid, hfence, hnew, heval]
  · intro failure heval
    simp only [verdict, hvalid, hfence, hnew, heval]

theorem selectPath_of_substitution (hrequired : request.requiredPath = 0)
    (hsubstitution : core.substitutionAllowed request = true)
    (hcandidates : request.pathCandidates ≠ []) :
    core.selectPath core.ledger request =
      core.searchPaths core.ledger request {} request.pathCandidates := by
  rw [Authority.selectPath, if_neg hcandidates, Authority.permittedCandidates,
    if_neg (not_not.mpr hrequired), if_pos hsubstitution]

section Alternatives

variable (hvalid : request.validate = .ok ()) (hfence : core.checkFence claim = .ok ())
  (hnew : (core.attempts.classify (probe request)).disposition = .new)
  (hrequired : request.requiredPath = 0) (hsubstitution : core.substitutionAllowed request = true)

include hvalid hfence hnew hrequired hsubstitution

theorem overlooks_iff (hmem : candidate ∈ request.pathCandidates) :
    core.Overlooks request candidate ↔
      (∃ reason evidence recordAttempt,
        core.verdict request claim = .refuse reason evidence recordAttempt ∧
          (reason.ForCapacity ∨ reason.outcome = .rejectPath)) ∧
        ∃ grant, core.verdict (request.reducedTo candidate) claim = .grant grant := by
  obtain ⟨-, hminimum, hmaximum⟩ := AdmissionRequest.rate_of_validate hvalid
  have hselect := selectPath_of_substitution hrequired hsubstitution (List.ne_nil_of_mem hmem)
  have hreduced := AdmissionRequest.validate_reducedTo hvalid hrequired hmem
  obtain ⟨hgranted, hrefused⟩ := verdict_of_new hvalid hfence hnew
  constructor
  · rintro ⟨hready, hexpected, hpermitted, hunseen, hcarried, fact, hcommitted, hne, hnot⟩
    refine ⟨?_, ?_⟩
    · cases heval : core.evaluate core.ledger request with
      | ok grant =>
        obtain ⟨-, -, -, found, hfound, hcarries⟩ :=
          (Authority.evaluate_isOk_iff hminimum hmaximum hselect).mp ⟨grant, heval⟩
        exact absurd (hcommitted.unique hfound ▸ hcarries) hnot
      | error failure =>
        exact ⟨failure.1, failure.2, true, hrefused _ heval,
          Or.inl (Authority.forCapacity_of_committed hready hexpected hpermitted hselect hcommitted
            hne failure heval)⟩
    · obtain ⟨grant, hgrant⟩ := (Authority.evaluate_reducedTo_isOk_iff hminimum hmaximum
        hrequired).mpr ⟨hready, Authority.checkExpectations_reducedTo hexpected hmem, hpermitted,
          hcarried⟩
      exact ⟨grant, (verdict_of_new hreduced hfence hunseen).1 grant hgrant⟩
  · rintro ⟨⟨reason, evidence, recordAttempt, hrefuse, hroom⟩, grant, hgrant⟩
    obtain ⟨-, -, hunseen, hevaluate⟩ := verdict_eq_grant hgrant
    obtain ⟨hready, -, hpermitted, hcarried⟩ :=
      (Authority.evaluate_reducedTo_isOk_iff hminimum hmaximum hrequired).mp ⟨grant, hevaluate⟩
    obtain ⟨fact, hfind, heligible, -⟩ := id hcarried
    cases heval : core.evaluate core.ledger request with
    | ok grant' => cases hrefuse.symm.trans (hgranted grant' heval)
    | error failure =>
      obtain ⟨rfl, rfl, -⟩ := Verdict.refuse.inj (hrefuse.symm.trans (hrefused failure heval))
      obtain ⟨hexpected, found, hcommitted, hne⟩ := Authority.committed_of_refusal heval hroom
        hready hpermitted hselect hmem hfind heligible
      refine ⟨hready, hexpected, hpermitted, hunseen, hcarried, found, hcommitted, hne,
        fun hcarries => ?_⟩
      obtain ⟨grant', hgrant'⟩ := (Authority.evaluate_isOk_iff hminimum hmaximum hselect).mpr
        ⟨hready, hexpected, hpermitted, found, hcommitted, hcarries⟩
      cases heval.symm.trans hgrant'

/-- A refusal for capacity or path reasons rules out every candidate on its own, exactly if no
candidate is overlooked; and then no call with one of them alone is answered with an admission. -/
theorem no_alternative_iff :
    ((∀ reason evidence recordAttempt,
        core.verdict request claim = .refuse reason evidence recordAttempt →
        (reason.ForCapacity ∨ reason.outcome = .rejectPath) →
        ∀ candidate ∈ request.pathCandidates, ∀ grant,
          core.verdict (request.reducedTo candidate) claim ≠ .grant grant) ↔
      ∀ candidate ∈ request.pathCandidates, ¬ core.Overlooks request candidate) ∧
    ((∀ candidate ∈ request.pathCandidates, ¬ core.Overlooks request candidate) →
      ∀ decision core', core.admitLocked request claim = (.ok decision, core') →
        decision.outcome ∈ [AdmissionOutcome.rejectCapacity, .rejectObligation, .rejectPath,
          .defer] →
        ∀ candidate ∈ request.pathCandidates, ∀ alternative core'',
          core.admitLocked (request.reducedTo candidate) claim = (.ok alternative, core'') →
            alternative.outcome.isAdmitting = false) := by
  have hiff : (∀ reason evidence recordAttempt,
      core.verdict request claim = .refuse reason evidence recordAttempt →
      (reason.ForCapacity ∨ reason.outcome = .rejectPath) →
      ∀ candidate ∈ request.pathCandidates, ∀ grant,
        core.verdict (request.reducedTo candidate) claim ≠ .grant grant) ↔
      ∀ candidate ∈ request.pathCandidates, ¬ core.Overlooks request candidate := by
    constructor
    · intro hruled candidate hmem hover
      obtain ⟨⟨reason, evidence, recordAttempt, hrefuse, hroom⟩, grant, hgrant⟩ :=
        (overlooks_iff hvalid hfence hnew hrequired hsubstitution hmem).mp hover
      exact hruled reason evidence recordAttempt hrefuse hroom candidate hmem grant hgrant
    · intro hnone reason evidence recordAttempt hrefuse hroom candidate hmem grant hgrant
      exact hnone candidate hmem
        ((overlooks_iff hvalid hfence hnew hrequired hsubstitution hmem).mpr
          ⟨⟨reason, evidence, recordAttempt, hrefuse, hroom⟩, grant, hgrant⟩)
  refine ⟨hiff, fun hnone decision core' hadmit houtcome candidate hmem alternative core''
    halt => ?_⟩
  have hruled := hiff.mpr hnone
  -- the answer is that of the refusal
  cases heval : core.evaluate core.ledger request with
  | ok grant =>
    have hverdict := (verdict_of_new hvalid hfence hnew).1 grant heval
    rw [admitLocked_of_grant hverdict] at hadmit
    obtain ⟨-, rfl⟩ := answer_fst_eq_ok_iff.mp (congrArg Prod.fst hadmit)
    have hadmitting := Authority.isAdmitting_of_evaluate heval
    rw [show (core.admission request claim grant).outcome = grant.outcome from rfl] at houtcome
    simp only [List.mem_cons, List.not_mem_nil, or_false] at houtcome
    rcases houtcome with h | h | h | h
    all_goals simp [h, AdmissionOutcome.isAdmitting] at hadmitting
  | error failure =>
    have hverdict := (verdict_of_new hvalid hfence hnew).2 failure heval
    have hreason : decision.outcome = failure.1.outcome := by
      simp only [admitLocked, hverdict] at hadmit
      exact outcome_of_refuse hadmit
    have hroom : failure.1.ForCapacity ∨ failure.1.outcome = .rejectPath := by
      rw [Refusal.ForCapacity, ← hreason]
      simp only [List.mem_cons, List.not_mem_nil, or_false] at houtcome
      tauto
    cases hreduced : core.verdict (request.reducedTo candidate) claim with
    | grant grant => exact absurd hreduced (hruled _ _ _ hverdict hroom candidate hmem grant)
    | refuse reason evidence recordAttempt =>
      simp only [admitLocked, hreduced] at halt
      rw [outcome_of_refuse halt]
      exact refuses_of_verdict.1 _ _ _ hreduced
    | retired reason =>
      simp only [admitLocked, hreduced] at halt
      rw [outcome_of_refuse halt]
      exact refuses_of_verdict.2 _ hreduced
    | replay replayed =>
      -- the key of the attempt is that of the request, which is new
      have hrecorded := AttemptRegistry.existing_of_replay (replayVerdict_of_verdict hreduced).2.2.1
      have hkey : (probe (request.reducedTo candidate)).key = (probe request).key := by
        simp only [AttemptRecord.key, probe, AdmissionRequest.reducedTo]
      rw [hkey, AttemptRegistry.getElem?_of_new hnew] at hrecorded
      cases hrecorded

end Alternatives

section Examples

open SmallFabric

/-- Two paths of a thousand, each over a resource of its own. -/
def twoPaths : PathCatalog where
  pathAuthorityGeneration := 1
  epoch := 1
  paths := [
    { path := 7, pathAuthorityGeneration := 1, state := .up, pathUsableCapacity := 1000,
      resources := [1] },
    { path := 8, pathAuthorityGeneration := 1, state := .up, pathUsableCapacity := 1000,
      resources := [2] }]

/-- The resource of the first path is full. -/
def twoPathCore : EngineCore :=
  (EngineCore.fresh {}).performAll (announce [known 1 1 100, known 2 1 100] ++
    [.publishPaths twoPaths, .admitRequest (SmallFabric.request 1 ⟨100, 100, 100⟩ [1]) {}])

/-- A request that may take either path. -/
def eitherPath (rate : Rate) : AdmissionRequest :=
  { boundRequest 2 rate with pathCandidates := [⟨7, 1⟩, ⟨8, 1⟩] }

/-- A request for two hundred is refused, and neither path is overlooked. -/
theorem none_overlooked_twoPathCore :
    (twoPathCore.admitLocked (eitherPath 200) {}).1.toOption.map (·.outcome) =
        some .rejectCapacity ∧
      ∀ candidate ∈ (eitherPath 200).pathCandidates,
        ¬ twoPathCore.Overlooks (eitherPath 200) candidate := by
  have hnone : ((eitherPath 200).pathCandidates.all fun candidate =>
      (twoPathCore.evaluate twoPathCore.ledger ((eitherPath 200).reducedTo candidate)).toOption =
        none) = true := by decide +kernel
  refine ⟨by decide +kernel, (no_alternative_iff (show (eitherPath 200).validate = .ok () by
    decide +kernel) (show twoPathCore.checkFence {} = .ok () by decide +kernel) (by decide +kernel)
    rfl (by decide +kernel)).1.mp fun _ _ _ _ _ candidate hmem grant hgrant => ?_⟩
  have hevaluate := (verdict_eq_grant hgrant).2.2.2
  have hcandidate := List.all_eq_true.mp hnone candidate hmem
  simp [hevaluate, Except.toOption] at hcandidate

/-- A request for fifty is refused over the first path, and granted with the second alone. -/
theorem overlooked_twoPathCore :
    (eitherPath 50).validate = .ok () ∧ twoPathCore.checkFence {} = .ok () ∧
      (twoPathCore.attempts.classify (probe (eitherPath 50))).disposition = .new ∧
      (eitherPath 50).requiredPath = 0 ∧ twoPathCore.substitutionAllowed (eitherPath 50) = true ∧
      (twoPathCore.admitLocked (eitherPath 50) {}).1.toOption.map (·.outcome) =
        some .rejectCapacity ∧
      ⟨8, 1⟩ ∈ (eitherPath 50).pathCandidates ∧
      (twoPathCore.admitLocked ((eitherPath 50).reducedTo ⟨8, 1⟩) {}).1.toOption.map
        (·.outcome) = some .admitted := by
  decide +kernel

end Examples

end EngineCore

end AdmissionFabric
