import AdmissionFabric.Engine.PathSearch
import AdmissionFabric.Engine.SmallFabric
import AdmissionFabric.Engine.VerdictSpec

/-!
# Path binding

A request that declares path candidates is meant to be admitted on one of them. The search over
the candidates does bind the request to a usable one if there is any. If there is none and some
candidate failed for lack of capacity, however, the search reports success without a path and
leaves the refusal to the capacity stage, which looks at the resources only. When the path itself
is exhausted and its resources are not, that stage admits, and the decision is bound to no path.
-/

namespace AdmissionFabric

/-! ### Bound decisions -/

/-- A decision is bound to a path that the request declares and permits, that is up and fast
enough, whose traversal is among the resources that hold the grant, and that had room for the
grant. -/
structure PathBound (core core' : EngineCore) (request : AdmissionRequest)
    (decision : AdmissionDecision) : Prop where
  declared : ∃ candidate ∈ request.pathCandidates, candidate.path = decision.selectedPath
  required : request.requiredPath ≠ 0 → decision.selectedPath = request.requiredPath
  first : request.requiredPath = 0 → core.substitutionAllowed request = false →
    request.pathCandidates.head?.map PathCandidate.path = some decision.selectedPath
  carries : ∃ fact, core.findPath decision.selectedPath = some fact ∧ fact.state = .up ∧
    fact.pathLatency ≤ request.maximumLatency ∧
    (∀ r ∈ fact.resources, r ∈ (core'.ledger.held decision.decision).map LedgerEntry.resource) ∧
    decision.granted.toNat ≤ fact.pathUsableCapacity.toNat -
      (core.ledger.admittedOnPath decision.selectedPath).toNat

namespace EngineCore

/-- The search for a path is bypassed: the request passes every stage before it, every permitted
candidate that could serve the request is exhausted, and the resources that the first of them
traverses, with the bound ones, have room for the request. -/
structure Bypassed (core : EngineCore) (request : AdmissionRequest) (claim : ClaimContext) :
    Prop where
  contract : request.validate = .ok ()
  fenced : core.checkFence claim = .ok ()
  unseen : (core.attempts.classify (probe request)).disposition = .new
  ready : core.checkReadiness = .ok ()
  expected : core.checkExpectations request = .ok ()
  permitted : core.checkPolicy request = .ok ()
  blocked : core.Blocked core.ledger request (core.permittedCandidates request)
  roomy : ∃ fact, core.firstEligible request (core.permittedCandidates request) = some fact ∧
    targetsOf request fact.resources ≠ [] ∧
    ∀ r ∈ targetsOf request fact.resources, ∃ free ∈ core.freeOn core.ledger r,
      request.rate.minimum ≤ free ∧
        (core.degradeAllowed request = true ∨ request.rate.desired ≤ free)

variable {core core' : EngineCore} {request : AdmissionRequest} {claim : ClaimContext}
  {decision : AdmissionDecision}

theorem Bypassed.verdict (h : core.Bypassed request claim) :
    ∃ grant, core.verdict request claim = .grant grant ∧ grant.evidence.path = 0 := by
  obtain ⟨fact, hfirst, htargets, hroom⟩ := h.roomy
  have hfallback : core.fallback request {} (core.permittedCandidates request) =
      some fact.resources := by
    simp [Authority.fallback, hfirst]
  obtain ⟨selection, hsearch, htraversal, hselected, hnone⟩ :=
    Authority.searchPaths_blocked rfl h.blocked hfallback
  have hcandidates : request.pathCandidates ≠ [] := by
    intro hnil
    simp [Authority.permittedCandidates, hnil, Authority.firstEligible] at hfirst
  have hselect : core.selectPath core.ledger request = .ok selection := by
    rw [Authority.selectPath, if_neg hcandidates, hsearch]
  have hfact : core.selectedFact selection = none := by
    rw [Authority.selectedFact, if_neg (by simp [hnone])]
  obtain ⟨grant, hverdict, -, hpath⟩ := verdict_of_room h.contract h.fenced h.unseen h.ready
    h.expected h.permitted hselect (htraversal ▸ htargets) (htraversal ▸ hroom)
    (by rw [hfact]; simp)
  exact ⟨grant, hverdict, hpath.trans hselected⟩

theorem pathBound_of_selected {grant : Grant} {selection : PathSelection}
    {candidate : PathCandidate} {fact : PathAdmissionFact}
    (hverdict : core.verdict request claim = .grant grant)
    (h : core.admitLocked request claim = (.ok decision, core'))
    (hevaluate : core.evaluate core.ledger request = .ok grant)
    (hselect : core.selectPath core.ledger request = .ok selection)
    (hcandidate : candidate ∈ core.permittedCandidates request)
    (hfind : core.findPath candidate.path = some fact) (heligible : core.Eligible request fact)
    (hselected : selection.selected = candidate.path)
    (htraversal : selection.traversal = fact.resources) (hpath : selection.pathSelected = true) :
    PathBound core core' request decision := by
  have hheld := held_of_admitLocked hverdict h
  obtain ⟨-, hdecision⟩ := answer_fst_eq_ok_iff.mp
    (congrArg Prod.fst (admitLocked_of_grant hverdict ▸ h))
  obtain ⟨selection', ceiling, binding, hresolve, hcap, hgrant, hevidence, -⟩ :=
    Authority.evaluate_eq_ok hevaluate
  obtain ⟨-, -, -, hselect', htargets, -⟩ := Authority.resolve_eq_ok_iff.mp hresolve
  obtain rfl : selection = selection' := Except.ok.inj (hselect ▸ hselect')
  have hbound : decision.selectedPath = candidate.path := by
    rw [hdecision]
    exact hevidence.trans hselected
  have hfact : core.selectedFact selection = some fact := by
    rw [Authority.selectedFact, if_pos hpath, hselected, hfind]
  refine ⟨⟨candidate, Authority.mem_of_mem_permittedCandidates hcandidate, hbound.symm⟩, ?_, ?_,
    fact, hbound ▸ hfind, heligible.1, heligible.2.2, ?_, ?_⟩
  · intro hrequired
    rw [hbound, Authority.path_of_mem_permittedCandidates hrequired hcandidate]
  · intro hrequired hsubstitution
    rw [Authority.head_of_mem_permittedCandidates hrequired hsubstitution hcandidate,
      Option.map_some, hbound]
  · intro r hr
    rw [hheld, AdmittedLoadLedger.newEntries, List.map_map, List.map_map, List.mem_map]
    refine ⟨r, ?_, rfl⟩
    rw [htargets, mem_targetsOf, htraversal]
    exact Or.inr hr
  · have hfree := Authority.granted_le_pathFree hcap hgrant hfact
    obtain ⟨c, -, -, hid⟩ := Authority.findPath_eq_some_iff.mp hfind
    rw [pathFree, UInt64.le_iff_toNat_le, toNat_satSub, hid, ← hbound] at hfree
    rw [hdecision] at hfree ⊢
    exact hfree

/-- A fresh admission is bound to a path, and known to be so where the policy requires it, except
in exactly the states in which the search is bypassed. -/
theorem pathBound_iff_not_bypassed (h : core.admitLocked request claim = (.ok decision, core')) :
    (decision.outcome.isAdmitting = true → decision.idempotentReplay = false →
      (request.pathCandidates ≠ [] → PathBound core core' request decision) ∧
      (core.pathRequired = true → decision.selectedPath ≠ 0)) ↔
    ¬ core.Bypassed request claim := by
  constructor
  · intro hbound hbypassed
    obtain ⟨grant, hverdict, hpath⟩ := hbypassed.verdict
    obtain ⟨-, hdecision⟩ := answer_fst_eq_ok_iff.mp
      (congrArg Prod.fst (admitLocked_of_grant hverdict ▸ h))
    have hadmitting := Authority.isAdmitting_of_evaluate (verdict_eq_grant hverdict).2.2.2
    obtain ⟨fact, hfirst, -⟩ := hbypassed.roomy
    have hcandidates : request.pathCandidates ≠ [] := by
      intro hnil
      simp [Authority.permittedCandidates, hnil, Authority.firstEligible] at hfirst
    have hdeclared := ((hbound (hdecision ▸ hadmitting) (hdecision ▸ rfl)).1 hcandidates).declared
    obtain ⟨candidate, hmem, hselected⟩ := hdeclared
    refine AdmissionRequest.path_ne_zero_of_validate hbypassed.contract candidate hmem ?_
    rw [hselected, hdecision]
    exact hpath
  · intro hnot hadmitting hfresh
    obtain ⟨grant, hverdict, -⟩ := admitLocked_fresh h hadmitting hfresh
    obtain ⟨hvalid, hfence, hnew, hevaluate⟩ := verdict_eq_grant hverdict
    obtain ⟨selection, ceiling, binding, hresolve, hcap, hgrant, -⟩ :=
      Authority.evaluate_eq_ok hevaluate
    obtain ⟨hready, hexpected, hpermitted, hselect, htargets, hne⟩ :=
      Authority.resolve_eq_ok_iff.mp hresolve
    by_cases hcandidates : request.pathCandidates = []
    · refine ⟨fun hne => absurd hcandidates hne, fun hrequired => ?_⟩
      simp [Authority.selectPath, hcandidates, hrequired] at hselect
    have hsearch := hselect
    rw [Authority.selectPath, if_neg hcandidates] at hsearch
    rcases Authority.searchPaths_eq_ok hsearch with
      ⟨candidate, hcandidate, fact, hfind, heligible, hselected, htraversal, hpath⟩ |
      ⟨-, hblocked, -, hnone, hfallback⟩
    · have hbound := pathBound_of_selected hverdict h hevaluate hselect hcandidate hfind heligible
        hselected htraversal hpath
      refine ⟨fun _ => hbound, fun _ => ?_⟩
      obtain ⟨declared, hmem, hpathEq⟩ := hbound.declared
      exact hpathEq ▸ AdmissionRequest.path_ne_zero_of_validate hvalid declared hmem
    · -- the fall-through admitted, so its resources had room
      refine absurd ?_ hnot
      simp only [Authority.fallback] at hfallback
      obtain ⟨fact, hfirst, htraversal⟩ : ∃ fact, core.firstEligible request
          (core.permittedCandidates request) = some fact ∧
            fact.resources = selection.traversal := by
        simpa using hfallback
      refine ⟨hvalid, hfence, hnew, hready, hexpected, hpermitted, hblocked, fact, hfirst, ?_⟩
      rw [htraversal, ← htargets]
      refine ⟨hne, fun r hr => ?_⟩
      obtain ⟨hgranted, hminimum, -⟩ := Authority.decideGrant_eq_ok hgrant
      obtain ⟨free, hfree, hle⟩ := Authority.granted_le_free hevaluate hr
      refine ⟨free, hfree, UInt64.le_trans hminimum hle, ?_⟩
      exact (Authority.degraded_or_desired_le hgrant).imp_right fun hdesired =>
        UInt64.le_trans hdesired hle

section Examples

open SmallFabric

/-- A path over resource 1, with a capacity of its own. -/
def pathOver (usable : Rate) : PathCatalog where
  pathAuthorityGeneration := 1
  epoch := 1
  paths := [{
    path := 7
    pathAuthorityGeneration := 1
    state := .up
    pathUsableCapacity := usable
    resources := [1] }]

/-- An engine that requires a path, with a hundred on the resource of the only one. -/
def routed (usable : Rate) : EngineCore :=
  (EngineCore.fresh {}).performAll ([.publishPolicy { policy with requirePathBinding := true },
    .publishPaths (pathOver usable)] ++ (announce [known 1 1 100]).tail)

/-- A demand of twenty on the path. -/
def routedRequest : AdmissionRequest :=
  { SmallFabric.request 1 ⟨20, 20, 20⟩ [] with
    pathCandidates := [⟨7, 1⟩]
    requiredPath := 7
    expected := { (SmallFabric.request 1 ⟨20, 20, 20⟩ []).expected with
      pathAuthorityGeneration := 1 } }

/-- A path of fifty has room for the demand, which is bound to it. -/
theorem pathBound_routed : ∃ decision core',
    (routed 50).admitLocked routedRequest {} = (.ok decision, core') ∧
      PathBound (routed 50) core' routedRequest decision := by
  have hgrants : (routed 50).grantsFresh routedRequest {} = true := by decide +kernel
  obtain ⟨decision, core', hcall, hadmitting, hfresh⟩ := grantsFresh_eq_true_iff.mp hgrants
  have hnot : ¬ (routed 50).Bypassed routedRequest {} := fun h =>
    absurd h.blocked (by decide +kernel)
  exact ⟨decision, core', hcall,
    ((pathBound_iff_not_bypassed hcall).mpr hnot hadmitting hfresh).1 (by decide)⟩

/-- A path of ten is exhausted by the demand, which is admitted all the same, bound to no path,
although the policy requires one. -/
theorem unbound_routed : ∃ decision core',
    (routed 10).admitLocked routedRequest {} = (.ok decision, core') ∧
      decision.outcome.isAdmitting = true ∧ decision.idempotentReplay = false ∧
      (routed 10).pathRequired = true ∧ decision.selectedPath = 0 ∧
      ¬ PathBound (routed 10) core' routedRequest decision := by
  have hgrants : (routed 10).grantsFresh routedRequest {} = true := by decide +kernel
  have hunbound : (((routed 10).admitLocked routedRequest {}).1.toOption.all
      (·.selectedPath = 0)) = true := by decide +kernel
  obtain ⟨decision, core', hcall, hadmitting, hfresh⟩ := grantsFresh_eq_true_iff.mp hgrants
  have hzero : decision.selectedPath = 0 := by simpa [hcall, Except.toOption] using hunbound
  refine ⟨decision, core', hcall, hadmitting, hfresh, by decide +kernel, hzero, fun hbound => ?_⟩
  exact absurd (hzero.symm.trans (hbound.required (by decide))) (by decide)

end Examples

end EngineCore

end AdmissionFabric
