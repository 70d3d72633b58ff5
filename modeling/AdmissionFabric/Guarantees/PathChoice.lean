import AdmissionFabric.Guarantees.CurrentAuthority
import AdmissionFabric.Guarantees.PathAccounting

/-!
# The choice of a path

The candidates that a request permits are tried in order, and the first one that serves the request
is selected. When none does, the failures of all of them decide: missing evidence comes first, then
a lack of capacity, which is left to the capacity stage, and only then a path refusal.
-/

namespace AdmissionFabric

namespace Authority

variable {candidates : List PathCandidate} {r : ResourceId} {selection : PathSelection}

/-- A path that is up and known, and has the latency and the capacity for a request. -/
structure Serves (authority : Authority) (ledger : AdmittedLoadLedger) (request : AdmissionRequest)
    (fact : PathAdmissionFact) : Prop where
  up : fact.state = .up
  known : ∀ r ∈ fact.resources, ∃ entry, authority.findCapacity r = some entry ∧
    entry.evidence = .known
  latency : fact.pathLatency ≤ request.maximumLatency
  pathRoom : request.rate.minimum.toNat ≤
    fact.pathUsableCapacity.toNat - (ledger.admittedOnPath fact.path).toNat
  resourceRoom : ∀ r ∈ fact.resources, ∀ entry, authority.findCapacity r = some entry →
    request.rate.minimum.toNat ≤ entry.usable.toNat - (authority.headroomFor entry).toNat -
      authority.obligationLoadOn r

/-- A candidate that is published with a path that serves the request. -/
def ServedBy (authority : Authority) (ledger : AdmittedLoadLedger) (request : AdmissionRequest)
    (candidate : PathCandidate) : Prop :=
  ∃ fact, authority.findPath candidate.path = some fact ∧ authority.Serves ledger request fact

/-- The candidates that may be tried: the required one, or all of them where the request and the
policy allow substitution, or the first one. -/
structure PermittedOrder (authority : Authority) (request : AdmissionRequest)
    (order : List PathCandidate) : Prop where
  required : request.requiredPath ≠ 0 → ∃ candidate ∈ request.pathCandidates,
    candidate.path = request.requiredPath ∧ order = [candidate]
  substitutable : request.requiredPath = 0 → request.allowPathSubstitution = true →
    (∀ policy, authority.policy = some policy → policy.allowPathSubstitution = true) →
      order = request.pathCandidates
  first : request.requiredPath = 0 → (request.allowPathSubstitution = false ∨
    ∃ policy, authority.policy = some policy ∧ policy.allowPathSubstitution = false) →
      ∃ candidate, request.pathCandidates.head? = some candidate ∧ order = [candidate]

variable {authority : Authority} {ledger : AdmittedLoadLedger} {request : AdmissionRequest}

theorem knownCapacity_ne_none_iff :
    authority.knownCapacity r ≠ none ↔
      ∃ entry, authority.findCapacity r = some entry ∧ entry.evidence = .known := by
  simp [knownCapacity]

theorem isShort_eq_false_iff {minimum : Rate} :
    authority.isShort minimum r = false ↔ ∀ entry, authority.findCapacity r = some entry →
      minimum.toNat ≤ entry.usable.toNat - (authority.headroomFor entry).toNat -
        authority.obligationLoadOn r := by
  unfold isShort
  cases authority.findCapacity r with
  | none => simp
  | some entry =>
    simp only [decide_eq_false_iff_not, UInt64.not_lt, Option.some.injEq, forall_eq',
      UInt64.le_iff_toNat_le, toNat_allowance]

theorem serves_iff {fact : PathAdmissionFact} :
    authority.Serves ledger request fact ↔
      authority.Eligible request fact ∧ ¬ authority.Exhausted ledger request fact := by
  have hpath : ¬ pathFree ledger fact fact.path < request.rate.minimum ↔
      request.rate.minimum.toNat ≤
        fact.pathUsableCapacity.toNat - (ledger.admittedOnPath fact.path).toNat := by
    rw [UInt64.not_lt, UInt64.le_iff_toNat_le, pathFree, toNat_satSub]
  rw [Exhausted, not_or, hpath]
  simp only [not_exists, not_and, Bool.not_eq_true, isShort_eq_false_iff, Eligible,
    knownCapacity_ne_none_iff]
  constructor
  · rintro ⟨hup, hknown, hlatency, hroom, hrooms⟩
    exact ⟨⟨hup, hknown, hlatency⟩, hroom, hrooms⟩
  · rintro ⟨⟨hup, hknown, hlatency⟩, hroom, hrooms⟩
    exact ⟨hup, hknown, hlatency, hroom, hrooms⟩

theorem servedBy_iff {candidate : PathCandidate} :
    authority.ServedBy ledger request candidate ↔ authority.Usable ledger request candidate :=
  exists_congr fun _ => and_congr_right fun _ => serves_iff

theorem permittedOrder_permittedCandidates (hvalid : request.validate = .ok ())
    (hcandidates : request.pathCandidates ≠ []) :
    authority.PermittedOrder request (authority.permittedCandidates request) := by
  have hsubstitution : authority.substitutionAllowed request = true ↔
      request.allowPathSubstitution = true ∧
        ∀ policy, authority.policy = some policy → policy.allowPathSubstitution = true := by
    rw [substitutionAllowed, Bool.and_eq_true]
    cases authority.policy <;> simp
  refine ⟨fun hrequired => ?_, fun hrequired hrequest hpolicy => ?_, fun hrequired hnot => ?_⟩
  · rw [permittedCandidates, if_pos hrequired]
    obtain ⟨candidate, hmem, hpath⟩ :=
      List.mem_map.mp (AdmissionRequest.requiredPath_mem_of_validate hvalid hrequired)
    cases hfind : request.pathCandidates.find? (·.path = request.requiredPath) with
    | none => exact absurd hpath (by simpa using List.find?_eq_none.mp hfind candidate hmem)
    | some found =>
      exact ⟨found, List.mem_of_find?_eq_some hfind, by simpa using List.find?_some hfind, rfl⟩
  · rw [permittedCandidates, if_neg (not_not.mpr hrequired),
      if_pos (hsubstitution.mpr ⟨hrequest, hpolicy⟩)]
  · have hrefused : ¬ authority.substitutionAllowed request = true := by
      rw [hsubstitution]
      rintro ⟨hrequest, hpolicy⟩
      rcases hnot with hfalse | ⟨policy, hsome, hfalse⟩
      · exact Bool.false_ne_true (hfalse.symm.trans hrequest)
      · exact Bool.false_ne_true (hfalse.symm.trans (hpolicy policy hsome))
    rw [permittedCandidates, if_neg (not_not.mpr hrequired), if_neg hrefused]
    obtain ⟨candidate, rest, hcons⟩ := List.exists_cons_of_ne_nil hcandidates
    rw [hcons]
    exact ⟨candidate, rfl, rfl⟩

/-! ### The selection -/

theorem pathSelected_concludeSearch {search : PathSearch}
    (h : concludeSearch search = .ok selection) : selection.pathSelected = false := by
  unfold concludeSearch at h
  split at h
  · cases h
  · rw [← Except.ok.inj h]
  · cases h

theorem searchPaths_selected_iff :
    (authority.searchPaths ledger request {} candidates = .ok selection ∧
        selection.pathSelected = true) ↔
      ∃ earlier candidate later fact, candidates = earlier ++ candidate :: later ∧
        (∀ c ∈ earlier, ¬ authority.Usable ledger request c) ∧
        authority.findPath candidate.path = some fact ∧
        (authority.Eligible request fact ∧ ¬ authority.Exhausted ledger request fact) ∧
        selection = {
          selected := candidate.path
          selectedGeneration := candidate.pathAuthorityGeneration
          traversal := fact.resources
          pathSelected := true } := by
  classical
  constructor
  · rintro ⟨hsearch, hselected⟩
    cases hfirst : candidates.find? fun c => decide (authority.Usable ledger request c) with
    | none =>
      have hnone : ∀ c ∈ candidates, ¬ authority.Usable ledger request c := fun c hc => by
        simpa using List.find?_eq_none.mp hfirst c hc
      obtain ⟨search, hconclude, -⟩ := exists_concludeSearch hnone {}
      rw [pathSelected_concludeSearch (hconclude.symm.trans hsearch)] at hselected
      cases hselected
    | some candidate =>
      obtain ⟨husable, earlier, later, rfl, hearlier⟩ := List.find?_eq_some_iff_append.mp hfirst
      obtain ⟨fact, hfind, heligible, hroom⟩ := of_decide_eq_true husable
      have hunusable : ∀ c ∈ earlier, ¬ authority.Usable ledger request c := fun c hc => by
        simpa using hearlier c hc
      rw [searchPaths_of_usable hunusable hfind heligible hroom] at hsearch
      exact ⟨earlier, candidate, later, fact, rfl, hunusable, hfind, ⟨heligible, hroom⟩,
        (Except.ok.inj hsearch).symm⟩
  · rintro ⟨earlier, candidate, later, fact, rfl, hearlier, hfind, ⟨heligible, hroom⟩, rfl⟩
    exact ⟨searchPaths_of_usable hearlier hfind heligible hroom {}, rfl⟩

/-- Missing evidence comes before a lack of capacity, and that before a path refusal. -/
theorem searchPaths_refused_iff (hnone : ∀ c ∈ candidates, ¬ authority.Usable ledger request c) :
    ((∃ constraint, authority.searchPaths ledger request {} candidates =
          .error ⟨.staleInput, constraint⟩) ↔ ∃ c ∈ candidates, authority.Obscure c) ∧
      ((∃ selection, authority.searchPaths ledger request {} candidates = .ok selection ∧
          selection.capacityBlocked = true) ↔
        (∀ c ∈ candidates, ¬ authority.Obscure c) ∧
          ∃ c ∈ candidates, authority.Short ledger request c) ∧
      ((∃ constraint, authority.searchPaths ledger request {} candidates =
          .error ⟨.rejectPath, constraint⟩) ↔
        ∀ c ∈ candidates, ¬ authority.Obscure c ∧ ¬ authority.Short ledger request c) := by
  obtain ⟨⟨unknownEvidence, capacityFailure, pathFailure⟩, hconclude, hunknown, hcapacity⟩ :=
    exists_concludeSearch hnone {}
  simp only [true_and] at hunknown hcapacity
  have hobscure : (∃ c ∈ candidates, authority.Obscure c) ↔ unknownEvidence ≠ none := by
    rw [ne_eq, hunknown]
    simp
  have hshort : (∃ c ∈ candidates, authority.Short ledger request c) ↔ capacityFailure ≠ none := by
    rw [ne_eq, hcapacity]
    simp
  simp only [forall_and, hobscure, hshort, ← hunknown, ← hcapacity, hconclude]
  cases unknownEvidence with
  | some constraint => simp [concludeSearch]
  | none =>
    cases capacityFailure with
    | some failure | none => simp [concludeSearch]

/-- What the path stage returns for a request with candidates. -/
theorem selectPath_spec (authority : Authority) (ledger : AdmittedLoadLedger)
    {request : AdmissionRequest} (hvalid : request.validate = .ok ())
    (hcandidates : request.pathCandidates ≠ []) :
    ∃ order, authority.PermittedOrder request order ∧
      (∀ selection, (authority.selectPath ledger request = .ok selection ∧
          selection.pathSelected = true) ↔
        ∃ earlier candidate later fact, order = earlier ++ candidate :: later ∧
          (∀ c ∈ earlier, ¬ authority.ServedBy ledger request c) ∧
          authority.findPath candidate.path = some fact ∧ authority.Serves ledger request fact ∧
          selection = {
            selected := candidate.path
            selectedGeneration := candidate.pathAuthorityGeneration
            traversal := fact.resources
            pathSelected := true }) ∧
      ((∀ c ∈ order, ¬ authority.ServedBy ledger request c) →
        ((∃ constraint, authority.selectPath ledger request = .error ⟨.staleInput, constraint⟩) ↔
          ∃ c ∈ order, authority.Obscure c) ∧
        ((∃ selection, authority.selectPath ledger request = .ok selection ∧
            selection.capacityBlocked = true) ↔
          (∀ c ∈ order, ¬ authority.Obscure c) ∧ ∃ c ∈ order, authority.Short ledger request c) ∧
        ((∃ constraint, authority.selectPath ledger request = .error ⟨.rejectPath, constraint⟩) ↔
          ∀ c ∈ order, ¬ authority.Obscure c ∧ ¬ authority.Short ledger request c)) ∧
      (authority.checkExpectations request = .ok () → ∀ candidate ∈ order,
        ∀ fact, authority.findPath candidate.path = some fact →
          candidate.pathAuthorityGeneration = fact.pathAuthorityGeneration) := by
  have hselect : authority.selectPath ledger request = authority.searchPaths ledger request {}
      (authority.permittedCandidates request) := by rw [selectPath, if_neg hcandidates]
  simp only [servedBy_iff, serves_iff, hselect]
  refine ⟨_, permittedOrder_permittedCandidates hvalid hcandidates,
    fun _ => searchPaths_selected_iff, searchPaths_refused_iff, ?_⟩
  intro hexpected candidate hcandidate fact hfind
  simp only [checkExpectations, check_bind_eq_ok_iff, forM_eq_ok_iff] at hexpected
  obtain ⟨-, -, -, -, -, -, -, hdeclared, -⟩ := hexpected
  have hcurrent := hdeclared candidate (mem_of_mem_permittedCandidates hcandidate)
  simpa [checkCandidate, hfind] using hcurrent

end Authority

namespace EngineCore

section Examples

open SmallFabric

/-- An engine with a path of five and a path of a hundred over one resource. -/
def pathCore : EngineCore :=
  (EngineCore.fresh {}).performAll (announce [known 1 1 1000] ++ [.publishPaths
    { pathThrough [1] with
      paths := (pathThrough [1]).paths.map ({ · with path := 6, pathUsableCapacity := 5 }) ++
        (pathThrough [1]).paths }])

/-- A request that prefers the small path. -/
def smallFirst : AdmissionRequest := { boundRequest 1 10 with pathCandidates := [⟨6, 1⟩, ⟨7, 1⟩] }

/-- The second candidate is selected, and it serves the request. -/
theorem selectPath_smallFirst : ∃ selection fact,
    pathCore.selectPath pathCore.ledger smallFirst = .ok selection ∧ selection.selected = 7 ∧
      pathCore.findPath 7 = some fact ∧ pathCore.Serves pathCore.ledger smallFirst fact := by
  obtain ⟨order, -, hselects, -⟩ := Authority.selectPath_spec pathCore.toAuthority pathCore.ledger
    (show smallFirst.validate = .ok () by decide +kernel) (by decide)
  have hselected : (pathCore.selectPath pathCore.ledger smallFirst).toOption.any
      (fun selection => selection.pathSelected && selection.selected = 7) = true := by
    decide +kernel
  cases hselect : pathCore.selectPath pathCore.ledger smallFirst with
  | error refusal => simp [hselect, Except.toOption] at hselected
  | ok selection =>
    simp only [hselect, Except.toOption, Option.any_some, Bool.and_eq_true,
      decide_eq_true_eq] at hselected
    obtain ⟨earlier, candidate, later, fact, -, -, hfind, hserves, rfl⟩ :=
      (hselects selection).mp ⟨hselect, hselected.1⟩
    exact ⟨_, fact, rfl, hselected.2, hselected.2 ▸ hfind, hserves⟩

/-- A request that keeps its contract and declares the path at another generation. -/
def misdated : AdmissionRequest := { boundRequest 1 10 with pathCandidates := [⟨7, 2⟩] }

/-- The selection reports the declared generation, which is not the published one. -/
theorem selectPath_misdated :
    misdated.validate = .ok () ∧
      (pathCore.selectPath pathCore.ledger misdated).toOption.map
        (fun selection => (selection.selected, selection.selectedGeneration)) = some (7, 2) ∧
      (pathCore.findPath 7).map (·.pathAuthorityGeneration) = some 1 := by
  decide +kernel

end Examples

end EngineCore

end AdmissionFabric
