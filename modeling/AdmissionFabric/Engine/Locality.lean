import AdmissionFabric.Engine.PathSearch

/-!
# What the evaluation of a request reads

The evaluation of a request looks at the load of the resources that the request can touch and of the
paths that it names, at what the registry knows of its attempt, and at the decision that it would
replay. Engines that agree on these give the same verdict.
-/

namespace AdmissionFabric

namespace Authority

variable {fact : PathAdmissionFact} {r : ResourceId} {selection : PathSelection}

/-- The resources that a candidate traverses. -/
def traversalOf (authority : Authority) (candidate : PathCandidate) : List ResourceId :=
  ((authority.findPath candidate.path).map (·.resources)).getD []

/-- The resources that a request declares and those that its path candidates traverse. -/
def footprint (authority : Authority) (request : AdmissionRequest) : List ResourceId :=
  request.resourceBindings.map (·.resource) ++ request.pathCandidates.flatMap authority.traversalOf

/-- Two ledgers with the same load on the resources that a request can touch and on its paths. -/
structure SameLoad (authority : Authority) (request : AdmissionRequest)
    (ledger ledger' : AdmittedLoadLedger) : Prop where
  resources : ∀ r ∈ authority.footprint request, ledger'.admitted r = ledger.admitted r
  paths : ∀ candidate ∈ request.pathCandidates,
    ledger'.admittedOnPath candidate.path = ledger.admittedOnPath candidate.path

variable {authority : Authority} {ledger ledger' : AdmittedLoadLedger}
  {request : AdmissionRequest}

/-! ### Path selection -/

theorem mem_footprint_of_traversal {candidate : PathCandidate}
    (hcandidate : candidate ∈ request.pathCandidates)
    (hfind : authority.findPath candidate.path = some fact) (hr : r ∈ fact.resources) :
    r ∈ authority.footprint request := by
  refine List.mem_append_right _ (List.mem_flatMap.mpr ⟨candidate, hcandidate, ?_⟩)
  rwa [traversalOf, hfind]

theorem searchPaths_congr {candidates : List PathCandidate}
    (h : ∀ candidate ∈ candidates,
      ledger'.admittedOnPath candidate.path = ledger.admittedOnPath candidate.path)
    (search : PathSearch) :
    authority.searchPaths ledger' request search candidates =
      authority.searchPaths ledger request search candidates := by
  induction candidates generalizing search with
  | nil => rfl
  | cons candidate rest ih =>
    obtain ⟨hfirst, hrest⟩ := List.forall_mem_cons.mp h
    have hjudge : authority.judgeCandidate ledger' request candidate =
        authority.judgeCandidate ledger request candidate := by
      simp only [judgeCandidate, judgeUp, pathFree, hfirst]
    simp only [searchPaths, hjudge, ih hrest]

theorem selectPath_congr (h : authority.SameLoad request ledger ledger') :
    authority.selectPath ledger' request = authority.selectPath ledger request := by
  unfold selectPath
  split
  · rfl
  · exact searchPaths_congr (fun candidate hcandidate =>
      h.paths candidate (mem_of_mem_permittedCandidates hcandidate)) {}

theorem traversal_subset_footprint (h : authority.selectPath ledger request = .ok selection) :
    selection.traversal ⊆ authority.footprint request := by
  unfold selectPath at h
  split at h
  · split at h
    · cases h
    · obtain rfl := Except.ok.inj h
      exact List.nil_subset _
  rcases searchPaths_eq_ok h with
    ⟨candidate, hcandidate, fact, hfind, -, -, htraversal, -⟩ | ⟨-, -, -, -, hfallback⟩
  · intro r hr
    exact mem_footprint_of_traversal (mem_of_mem_permittedCandidates hcandidate) hfind
      (htraversal ▸ hr)
  · have hmap : (authority.firstEligible request (authority.permittedCandidates request)).map
        (·.resources) = some selection.traversal := hfallback
    obtain ⟨fact, hfirst, htraversal⟩ := Option.map_eq_some_iff.mp hmap
    obtain ⟨candidate, hcandidate, hfact⟩ := List.exists_of_findSome?_eq_some hfirst
    intro r hr
    exact mem_footprint_of_traversal (mem_of_mem_permittedCandidates hcandidate)
      (Option.filter_eq_some_iff.mp hfact).1 (htraversal ▸ hr)

theorem candidate_of_selectedFact (h : authority.selectPath ledger request = .ok selection)
    (hfact : authority.selectedFact selection = some fact) :
    ∃ candidate ∈ request.pathCandidates, candidate.path = fact.path := by
  unfold selectedFact at hfact
  split at hfact
  · rename_i hselected
    obtain ⟨c, -, -, hpath⟩ := findPath_eq_some_iff.mp hfact
    unfold selectPath at h
    split at h
    · split at h
      · cases h
      · obtain rfl := Except.ok.inj h
        cases hselected
    rcases searchPaths_eq_ok h with
      ⟨candidate, hcandidate, -, -, -, hchosen, -⟩ | ⟨-, -, -, hnone, -⟩
    · exact ⟨candidate, mem_of_mem_permittedCandidates hcandidate, by rw [hpath, hchosen]⟩
    · exact absurd (hselected.symm.trans hnone) (by decide)
  · cases hfact

/-! ### Evaluation -/

theorem scanTargets_congr {targets : List ResourceId}
    (h : ∀ r ∈ targets, ledger'.admitted r = ledger.admitted r) (limit : Limit)
    (views : List ResourceView) :
    authority.scanTargets ledger' request limit views targets =
      authority.scanTargets ledger request limit views targets := by
  induction targets generalizing limit views with
  | nil => rfl
  | cons r rest ih =>
    obtain ⟨hfirst, hrest⟩ := List.forall_mem_cons.mp h
    have hview : authority.viewOf ledger' r = authority.viewOf ledger r := by
      funext entry
      simp only [viewOf, hfirst]
    simp only [scanTargets, hview, ih hrest]

theorem mem_footprint_of_mem_targetsOf (h : authority.selectPath ledger request = .ok selection)
    (hr : r ∈ targetsOf request selection.traversal) : r ∈ authority.footprint request := by
  rcases mem_targetsOf.mp hr with hr | hr
  · exact List.mem_append_left _ (List.mem_map.mpr hr)
  · exact traversal_subset_footprint h hr

theorem evaluateCapacity_congr (h : authority.SameLoad request ledger ledger')
    (hselect : authority.selectPath ledger request = .ok selection) :
    authority.evaluateCapacity ledger' request (targetsOf request selection.traversal)
        (authority.selectedFact selection) =
      authority.evaluateCapacity ledger request (targetsOf request selection.traversal)
        (authority.selectedFact selection) := by
  have hscan : ∀ limit views, authority.scanTargets ledger' request limit views _ =
      authority.scanTargets ledger request limit views _ :=
    scanTargets_congr fun r hr => h.resources r (mem_footprint_of_mem_targetsOf hselect hr)
  have hpath : capByPath ledger' request (authority.selectedFact selection) =
      capByPath ledger request (authority.selectedFact selection) := by
    funext limit
    cases hfact : authority.selectedFact selection with
    | none => rfl
    | some fact =>
      obtain ⟨candidate, hcandidate, hid⟩ := candidate_of_selectedFact hselect hfact
      have hfree : pathFree ledger' fact fact.path = pathFree ledger fact fact.path := by
        rw [pathFree, ← hid, h.paths candidate hcandidate, pathFree]
      simp only [capByPath]
      rw [hfree]
  simp only [evaluateCapacity, hscan, hpath]

theorem evaluate_congr (h : authority.SameLoad request ledger ledger') :
    authority.evaluate ledger' request = authority.evaluate ledger request := by
  have hresolve : authority.resolve ledger' request = authority.resolve ledger request := by
    simp only [resolve, selectPath_congr h]
  unfold evaluate
  rw [hresolve]
  cases hresolved : authority.resolve ledger request with
  | error refusal => rfl
  | ok resolved =>
    obtain ⟨selection, targets⟩ := resolved
    obtain ⟨-, -, -, hselect, rfl, -⟩ := resolve_eq_ok_iff.mp hresolved
    simp only [evaluateCapacity_congr h hselect]

end Authority

namespace EngineCore

/-! ### The verdict -/

/-- Two engines that agree as far as a request is concerned: on what is published, on who may ask,
on the load that it can touch, on its attempt and on the decision that it would replay. -/
structure SameFor (request : AdmissionRequest) (core core' : EngineCore) : Prop where
  authority : core'.toAuthority = core.toAuthority
  config : core'.config = core.config
  sessions : core'.sessions = core.sessions
  load : core.SameLoad request core.ledger core'.ledger
  attempt : core'.attempts.classify (probe request) = core.attempts.classify (probe request)
  replayed : (core.attempts.classify (probe request)).disposition = .replay →
    core'.replayVerdict request (core.attempts.classify (probe request)).existing.decision =
      core.replayVerdict request (core.attempts.classify (probe request)).existing.decision

variable {request : AdmissionRequest} {core core' : EngineCore}

theorem checkFence_congr (hauthority : core'.toAuthority = core.toAuthority)
    (hconfig : core'.config = core.config) (hsessions : core'.sessions = core.sessions)
    (claim : ClaimContext) : core'.checkFence claim = core.checkFence claim := by
  have hepoch : core'.epoch = core.epoch := congrArg Authority.epoch hauthority
  have hincarnation : core'.incarnation = core.incarnation :=
    congrArg Authority.incarnation hauthority
  simp only [checkFence, sessionMatches, fenceRefusal, hconfig, hsessions, hepoch, hincarnation]

theorem verdict_congr (h : SameFor request core core') (claim : ClaimContext) :
    core'.verdict request claim = core.verdict request claim := by
  have hevaluate : core'.toAuthority.evaluate core'.ledger request =
      core.toAuthority.evaluate core.ledger request := by
    rw [h.authority]
    exact Authority.evaluate_congr h.load
  simp only [verdict, checkFence_congr h.authority h.config h.sessions, h.attempt, hevaluate]
  cases hclass : (core.attempts.classify (probe request)).disposition with
  | new | conflict => rfl
  | replay => simp only [h.replayed hclass]

end EngineCore

end AdmissionFabric
