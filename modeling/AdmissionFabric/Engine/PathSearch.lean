import AdmissionFabric.Engine.EvaluateSpec

/-!
# The search for a path

What the verdicts on the candidates say about their paths, and what the search makes of them: a
selection is that of a usable candidate, or the fall-through of a search in which every candidate
is exhausted.
-/

namespace AdmissionFabric

namespace Authority

variable {fact : PathAdmissionFact} {candidates : List PathCandidate}

/-! ### Candidates -/

/-- The evidence on a path is missing: its state, or the capacity of one of its resources. -/
def Undetermined (authority : Authority) (fact : PathAdmissionFact) : Prop :=
  fact.state = .unknown ∨
    fact.state = .up ∧ ∃ r ∈ fact.resources, authority.knownCapacity r = none

/-- A path that could serve the request if it has capacity. -/
def Eligible (authority : Authority) (request : AdmissionRequest) (fact : PathAdmissionFact) :
    Prop :=
  fact.state = .up ∧ (∀ r ∈ fact.resources, authority.knownCapacity r ≠ none) ∧
    fact.pathLatency ≤ request.maximumLatency

/-- A path without capacity for the minimum: its own, or that of a resource it traverses. -/
def Exhausted (authority : Authority) (ledger : AdmittedLoadLedger) (request : AdmissionRequest)
    (fact : PathAdmissionFact) : Prop :=
  pathFree ledger fact fact.path < request.rate.minimum ∨
    ∃ r ∈ fact.resources, authority.isShort request.rate.minimum r = true

-- the instances name the quantifier over the list: identities are machine words, and another
-- instance would try all of them
instance (authority : Authority) (fact : PathAdmissionFact) :
    Decidable (authority.Undetermined fact) :=
  have := List.decidableBEx (fun r => authority.knownCapacity r = none) fact.resources
  inferInstanceAs (Decidable (_ ∨ _ ∧ _))

instance (authority : Authority) (request : AdmissionRequest) (fact : PathAdmissionFact) :
    Decidable (authority.Eligible request fact) :=
  have := List.decidableBAll (fun r => authority.knownCapacity r ≠ none) fact.resources
  inferInstanceAs (Decidable (_ ∧ _ ∧ _))

instance (authority : Authority) (ledger : AdmittedLoadLedger) (request : AdmissionRequest)
    (fact : PathAdmissionFact) : Decidable (authority.Exhausted ledger request fact) :=
  have := List.decidableBEx (fun r => authority.isShort request.rate.minimum r = true)
    fact.resources
  inferInstanceAs (Decidable (_ ∨ _))

/-- No candidate is undetermined, and every eligible one is exhausted. -/
def Blocked (authority : Authority) (ledger : AdmittedLoadLedger) (request : AdmissionRequest)
    (candidates : List PathCandidate) : Prop :=
  ∀ candidate ∈ candidates, (authority.findPath candidate.path).all fun fact =>
    ¬ authority.Undetermined fact ∧
      (authority.Eligible request fact → authority.Exhausted ledger request fact)

instance (authority : Authority) (ledger : AdmittedLoadLedger) (request : AdmissionRequest)
    (candidates : List PathCandidate) :
    Decidable (authority.Blocked ledger request candidates) := by
  unfold Blocked
  infer_instance

/-- The first candidate that could serve the request if it had capacity. -/
def firstEligible (authority : Authority) (request : AdmissionRequest)
    (candidates : List PathCandidate) : Option PathAdmissionFact :=
  candidates.findSome? fun candidate =>
    (authority.findPath candidate.path).filter fun fact => authority.Eligible request fact

variable {authority : Authority} {ledger : AdmittedLoadLedger} {request : AdmissionRequest}

theorem Undetermined.not_eligible (h : authority.Undetermined fact) :
    ¬ authority.Eligible request fact := by
  rintro ⟨hup, hknown, -⟩
  rcases h with hstate | ⟨-, r, hr, hnone⟩
  · exact absurd (hup.symm.trans hstate) (by decide)
  · exact hknown r hr hnone

/-- What a verdict on a candidate says about its path. -/
def Agrees (authority : Authority) (ledger : AdmittedLoadLedger) (request : AdmissionRequest)
    (candidate : PathCandidate) : CandidateVerdict → Prop
  | .unknownEvidence _ => ∃ fact, authority.findPath candidate.path = some fact ∧
      authority.Undetermined fact
  | .pathFailure _ => ∀ fact, authority.findPath candidate.path = some fact →
      ¬ authority.Undetermined fact ∧ ¬ authority.Eligible request fact
  | .capacityFailure _ traversal => ∃ fact, authority.findPath candidate.path = some fact ∧
      authority.Eligible request fact ∧ authority.Exhausted ledger request fact ∧
      traversal = fact.resources
  | .usable fact => authority.findPath candidate.path = some fact ∧
      authority.Eligible request fact ∧ ¬ authority.Exhausted ledger request fact

theorem agrees_judgeUp {candidate : PathCandidate}
    (hfind : authority.findPath candidate.path = some fact) (hup : fact.state = .up)
    (hknown : ∀ r ∈ fact.resources, authority.knownCapacity r ≠ none) :
    authority.Agrees ledger request candidate
      (authority.judgeUp ledger request candidate fact) := by
  obtain ⟨c, -, -, hpath⟩ := findPath_eq_some_iff.mp hfind
  unfold judgeUp
  rw [← hpath]
  simp only
  split
  · rename_i hlatency
    intro fact' hfind'
    obtain rfl : fact = fact' := Option.some.inj (hfind ▸ hfind')
    refine ⟨?_, fun heligible => UInt64.not_le.mpr hlatency heligible.2.2⟩
    rintro (hstate | ⟨-, r, hr, hnone⟩)
    · exact absurd (hup.symm.trans hstate) (by decide)
    · exact hknown r hr hnone
  · rename_i hlatency
    have heligible : authority.Eligible request fact := ⟨hup, hknown, UInt64.not_lt.mp hlatency⟩
    split
    · rename_i hfree
      exact ⟨fact, hfind, heligible, Or.inl hfree, rfl⟩
    · rename_i hfree
      split
      · rename_i hshort
        exact ⟨fact, hfind, heligible, Or.inr (List.any_eq_true.mp hshort), rfl⟩
      · rename_i hshort
        refine ⟨hfind, heligible, ?_⟩
        rintro (hlt | hany)
        · exact hfree hlt
        · exact hshort (List.any_eq_true.mpr hany)

theorem agrees_judgeCandidate (candidate : PathCandidate) :
    authority.Agrees ledger request candidate
      (authority.judgeCandidate ledger request candidate) := by
  unfold judgeCandidate
  cases hfind : authority.findPath candidate.path with
  | none => simp [Agrees, hfind]
  | some fact =>
    simp only
    split
    · rename_i hstate
      exact ⟨fact, hfind, Or.inl hstate⟩
    · rename_i hstate
      split
      · rename_i hdown
        intro fact' hfind'
        obtain rfl : fact = fact' := Option.some.inj (hfind ▸ hfind')
        exact ⟨fun h => h.elim hstate fun h => hdown h.1, fun h => hdown h.1⟩
      · rename_i hup
        cases hmissing : fact.resources.find? fun r => (authority.knownCapacity r).isNone with
        | some resource =>
          refine ⟨fact, hfind, Or.inr ⟨not_not.mp hup, resource, List.mem_of_find?_eq_some hmissing,
            ?_⟩⟩
          have hnone := List.find?_some hmissing
          exact Option.isNone_iff_eq_none.mp hnone
        | none =>
          refine agrees_judgeUp hfind (not_not.mp hup) fun r hr hnone => ?_
          exact List.find?_eq_none.mp hmissing r hr (Option.isNone_iff_eq_none.mpr hnone)

/-! ### The search -/

theorem firstEligible_cons (candidate : PathCandidate) (rest : List PathCandidate) :
    authority.firstEligible request (candidate :: rest) =
      (((authority.findPath candidate.path).filter fun fact =>
        authority.Eligible request fact) <|> authority.firstEligible request rest) := by
  rw [firstEligible, List.findSome?_cons]
  cases (authority.findPath candidate.path).filter fun fact => authority.Eligible request fact with
  | none | some fact => rfl

/-- The traversal that the search falls back to: that of the first capacity failure. -/
def fallback (authority : Authority) (request : AdmissionRequest) (search : PathSearch)
    (candidates : List PathCandidate) : Option (List ResourceId) :=
  search.capacityFailure.map Prod.snd <|>
    (authority.firstEligible request candidates).map (·.resources)

theorem blocked_cons {candidate : PathCandidate} {rest : List PathCandidate} :
    authority.Blocked ledger request (candidate :: rest) ↔
      (∀ fact, authority.findPath candidate.path = some fact → ¬ authority.Undetermined fact ∧
        (authority.Eligible request fact → authority.Exhausted ledger request fact)) ∧
      authority.Blocked ledger request rest := by
  rw [Blocked, List.forall_mem_cons]
  refine and_congr ?_ Iff.rfl
  cases authority.findPath candidate.path with
  | none => simp
  | some fact => simp only [Option.all_some, decide_eq_true_eq, Option.some.injEq, forall_eq']

section Step

variable {search : PathSearch} {candidate : PathCandidate} {rest : List PathCandidate}
  {constraint : BindingConstraint} {traversal : List ResourceId}

theorem fallback_of_capacityFailure
    (h : authority.Agrees ledger request candidate (.capacityFailure constraint traversal)) :
    authority.fallback request { search with
      capacityFailure := search.capacityFailure <|> some (constraint, traversal) } rest =
      authority.fallback request search (candidate :: rest) := by
  obtain ⟨fact, hfind, heligible, -, rfl⟩ := h
  simp only [fallback, firstEligible_cons, hfind, Option.filter_some, heligible, decide_true,
    ↓reduceIte]
  cases search.capacityFailure <;> simp

theorem fallback_of_pathFailure
    (h : authority.Agrees ledger request candidate (.pathFailure constraint)) :
    authority.fallback request { search with
      pathFailure := search.pathFailure <|> some constraint } rest =
      authority.fallback request search (candidate :: rest) := by
  have hnone : ((authority.findPath candidate.path).filter fun fact =>
      authority.Eligible request fact) = none := by
    rw [Option.filter_eq_none_iff]
    intro fact hfind
    simpa using (h fact hfind).2
  simp [fallback, firstEligible_cons, hnone]

end Step

theorem searchPaths_eq_ok {search : PathSearch} {selection : PathSelection}
    (h : authority.searchPaths ledger request search candidates = .ok selection) :
    (∃ candidate ∈ candidates, ∃ fact, authority.findPath candidate.path = some fact ∧
      authority.Eligible request fact ∧ selection.selected = candidate.path ∧
      selection.traversal = fact.resources ∧ selection.pathSelected = true) ∨
    (search.unknownEvidence = none ∧ authority.Blocked ledger request candidates ∧
      selection.selected = 0 ∧ selection.pathSelected = false ∧
      authority.fallback request search candidates = some selection.traversal) := by
  induction candidates generalizing search with
  | nil =>
    rw [searchPaths, concludeSearch] at h
    right
    split at h
    · cases h
    · rename_i hunknown hcapacity
      obtain rfl := Except.ok.inj h
      exact ⟨hunknown, by simp [Blocked], rfl, rfl, by simp [fallback, hcapacity]⟩
    · cases h
  | cons candidate rest ih =>
    have hagrees : authority.Agrees ledger request candidate _ := agrees_judgeCandidate candidate
    rw [searchPaths] at h
    cases hjudge : authority.judgeCandidate ledger request candidate with
    | usable fact =>
      simp only [hjudge, Except.ok.injEq, Agrees] at h hagrees
      subst h
      exact Or.inl ⟨candidate, List.mem_cons_self, fact, hagrees.1, hagrees.2.1, rfl, rfl, rfl⟩
    | unknownEvidence constraint =>
      simp only [hjudge] at h
      rcases ih h with ⟨c, hc, hrest⟩ | ⟨hunknown, -⟩
      · exact Or.inl ⟨c, List.mem_cons_of_mem _ hc, hrest⟩
      · cases hprevious : search.unknownEvidence <;> simp [hprevious] at hunknown
    | capacityFailure constraint traversal =>
      simp only [hjudge] at h hagrees
      rcases ih h with ⟨c, hc, hrest⟩ | ⟨hunknown, hblocked, hselected, hnone, hfallback⟩
      · exact Or.inl ⟨c, List.mem_cons_of_mem _ hc, hrest⟩
      · rw [fallback_of_capacityFailure hagrees] at hfallback
        obtain ⟨fact, hfind, heligible, hexhausted, -⟩ := hagrees
        refine Or.inr ⟨hunknown, blocked_cons.mpr ⟨fun fact' hfind' => ?_, hblocked⟩, hselected,
          hnone, hfallback⟩
        obtain rfl : fact = fact' := Option.some.inj (hfind ▸ hfind')
        exact ⟨fun hundetermined => hundetermined.not_eligible heligible, fun _ => hexhausted⟩
    | pathFailure constraint =>
      simp only [hjudge] at h hagrees
      rcases ih h with ⟨c, hc, hrest⟩ | ⟨hunknown, hblocked, hselected, hnone, hfallback⟩
      · exact Or.inl ⟨c, List.mem_cons_of_mem _ hc, hrest⟩
      · rw [fallback_of_pathFailure hagrees] at hfallback
        refine Or.inr ⟨hunknown, blocked_cons.mpr ⟨fun fact hfind => ?_, hblocked⟩, hselected,
          hnone, hfallback⟩
        exact ⟨(hagrees fact hfind).1, fun heligible => absurd heligible (hagrees fact hfind).2⟩

theorem searchPaths_blocked {search : PathSearch} {traversal : List ResourceId}
    (hunknown : search.unknownEvidence = none)
    (hblocked : authority.Blocked ledger request candidates)
    (hfallback : authority.fallback request search candidates = some traversal) :
    ∃ selection, authority.searchPaths ledger request search candidates = .ok selection ∧
      selection.traversal = traversal ∧ selection.selected = 0 ∧
      selection.pathSelected = false := by
  induction candidates generalizing search with
  | nil =>
    rw [searchPaths, concludeSearch, hunknown]
    cases hcapacity : search.capacityFailure with
    | none => simp [fallback, hcapacity, firstEligible] at hfallback
    | some failure =>
      rw [fallback, hcapacity] at hfallback
      exact ⟨_, rfl, Option.some.inj hfallback, rfl, rfl⟩
  | cons candidate rest ih =>
    have hagrees : authority.Agrees ledger request candidate _ := agrees_judgeCandidate candidate
    obtain ⟨hfirst, hrest⟩ := blocked_cons.mp hblocked
    rw [searchPaths]
    cases hjudge : authority.judgeCandidate ledger request candidate with
    | usable fact =>
      rw [hjudge] at hagrees
      exact absurd ((hfirst fact hagrees.1).2 hagrees.2.1) hagrees.2.2
    | unknownEvidence constraint =>
      rw [hjudge] at hagrees
      obtain ⟨fact, hfind, hundetermined⟩ := hagrees
      exact absurd hundetermined (hfirst fact hfind).1
    | capacityFailure constraint traversal =>
      rw [hjudge] at hagrees
      exact ih hunknown hrest ((fallback_of_capacityFailure hagrees).trans hfallback)
    | pathFailure constraint =>
      rw [hjudge] at hagrees
      exact ih hunknown hrest ((fallback_of_pathFailure hagrees).trans hfallback)

/-! ### Candidates and their paths -/

/-- The path of a candidate has evidence, is within the latency and has the capacity. -/
def Usable (authority : Authority) (ledger : AdmittedLoadLedger) (request : AdmissionRequest)
    (candidate : PathCandidate) : Prop :=
  ∃ fact, authority.findPath candidate.path = some fact ∧ authority.Eligible request fact ∧
    ¬ authority.Exhausted ledger request fact

/-- The evidence on the path of a candidate is missing. -/
def Obscure (authority : Authority) (candidate : PathCandidate) : Prop :=
  ∃ fact, authority.findPath candidate.path = some fact ∧ authority.Undetermined fact

/-- The path of a candidate lacks nothing but capacity. -/
def Short (authority : Authority) (ledger : AdmittedLoadLedger) (request : AdmissionRequest)
    (candidate : PathCandidate) : Prop :=
  ∃ fact, authority.findPath candidate.path = some fact ∧ authority.Eligible request fact ∧
    authority.Exhausted ledger request fact

theorem judgeCandidate_eq_usable {candidate : PathCandidate}
    (hfind : authority.findPath candidate.path = some fact)
    (heligible : authority.Eligible request fact)
    (hroom : ¬ authority.Exhausted ledger request fact) :
    authority.judgeCandidate ledger request candidate = .usable fact := by
  have hagrees : authority.Agrees ledger request candidate _ := agrees_judgeCandidate candidate
  cases hjudge : authority.judgeCandidate ledger request candidate with
  | usable found =>
    rw [hjudge] at hagrees
    rw [Option.some.inj (hfind.symm.trans hagrees.1)]
  | unknownEvidence constraint =>
    rw [hjudge] at hagrees
    obtain ⟨found, hfound, hundetermined⟩ := hagrees
    obtain rfl := Option.some.inj (hfind.symm.trans hfound)
    exact absurd heligible hundetermined.not_eligible
  | pathFailure constraint =>
    rw [hjudge] at hagrees
    exact absurd heligible (hagrees fact hfind).2
  | capacityFailure constraint traversal =>
    rw [hjudge] at hagrees
    obtain ⟨found, hfound, -, hexhausted, -⟩ := hagrees
    obtain rfl := Option.some.inj (hfind.symm.trans hfound)
    exact absurd hexhausted hroom

theorem searchPaths_of_usable {earlier later : List PathCandidate} {candidate : PathCandidate}
    (hearlier : ∀ c ∈ earlier, ¬ authority.Usable ledger request c)
    (hfind : authority.findPath candidate.path = some fact)
    (heligible : authority.Eligible request fact)
    (hroom : ¬ authority.Exhausted ledger request fact) (search : PathSearch) :
    authority.searchPaths ledger request search (earlier ++ candidate :: later) = .ok {
      selected := candidate.path
      selectedGeneration := candidate.pathAuthorityGeneration
      traversal := fact.resources
      pathSelected := true } := by
  induction earlier generalizing search with
  | nil => simp only [List.nil_append, searchPaths, judgeCandidate_eq_usable hfind heligible hroom]
  | cons c earlier ih =>
    obtain ⟨hfirst, hrest⟩ := List.forall_mem_cons.mp hearlier
    have hagrees : authority.Agrees ledger request c _ := agrees_judgeCandidate c
    rw [List.cons_append, searchPaths]
    cases hjudge : authority.judgeCandidate ledger request c with
    | usable found =>
      rw [hjudge] at hagrees
      exact absurd ⟨found, hagrees⟩ hfirst
    | unknownEvidence constraint | pathFailure constraint | capacityFailure constraint traversal =>
      exact ih hrest _

theorem exists_concludeSearch (h : ∀ c ∈ candidates, ¬ authority.Usable ledger request c)
    (search : PathSearch) :
    ∃ search', authority.searchPaths ledger request search candidates = concludeSearch search' ∧
      (search'.unknownEvidence = none ↔
        search.unknownEvidence = none ∧ ∀ c ∈ candidates, ¬ authority.Obscure c) ∧
      (search'.capacityFailure = none ↔
        search.capacityFailure = none ∧ ∀ c ∈ candidates, ¬ authority.Short ledger request c) := by
  induction candidates generalizing search with
  | nil => exact ⟨search, rfl, by simp, by simp⟩
  | cons c rest ih =>
    obtain ⟨hfirst, hrest⟩ := List.forall_mem_cons.mp h
    have hagrees : authority.Agrees ledger request c _ := agrees_judgeCandidate c
    simp only [searchPaths, List.forall_mem_cons]
    cases hjudge : authority.judgeCandidate ledger request c with
    | usable found =>
      rw [hjudge] at hagrees
      exact absurd ⟨found, hagrees⟩ hfirst
    | unknownEvidence constraint =>
      rw [hjudge] at hagrees
      have hshort : ¬ authority.Short ledger request c := by
        rintro ⟨fact, hfact, heligible, -⟩
        obtain ⟨found, hfound, hundetermined⟩ := hagrees
        obtain rfl := Option.some.inj (hfact.symm.trans hfound)
        exact hundetermined.not_eligible heligible
      obtain ⟨search', hsearch, hunknown, hcapacity⟩ := ih hrest
        { search with unknownEvidence := search.unknownEvidence <|> some constraint }
      refine ⟨search', hsearch, ?_, by simpa [hshort] using hcapacity⟩
      have hobscure : authority.Obscure c := hagrees
      cases hlatch : search.unknownEvidence <;> simp_all
    | pathFailure constraint =>
      rw [hjudge] at hagrees
      have hobscure : ¬ authority.Obscure c := fun ⟨fact, hfact, hundetermined⟩ =>
        (hagrees fact hfact).1 hundetermined
      have hshort : ¬ authority.Short ledger request c := fun ⟨fact, hfact, heligible, _⟩ =>
        (hagrees fact hfact).2 heligible
      obtain ⟨search', hsearch, hunknown, hcapacity⟩ := ih hrest
        { search with pathFailure := search.pathFailure <|> some constraint }
      exact ⟨search', hsearch, by simpa [hobscure] using hunknown,
        by simpa [hshort] using hcapacity⟩
    | capacityFailure constraint traversal =>
      rw [hjudge] at hagrees
      obtain ⟨fact, hfact, heligible, hexhausted, -⟩ := hagrees
      have hobscure : ¬ authority.Obscure c := by
        rintro ⟨found, hfound, hundetermined⟩
        obtain rfl := Option.some.inj (hfact.symm.trans hfound)
        exact hundetermined.not_eligible heligible
      obtain ⟨search', hsearch, hunknown, hcapacity⟩ := ih hrest
        { search with
          capacityFailure := search.capacityFailure <|> some (constraint, traversal) }
      refine ⟨search', hsearch, by simpa [hobscure] using hunknown, ?_⟩
      have hshort : authority.Short ledger request c := ⟨fact, hfact, heligible, hexhausted⟩
      cases hlatch : search.capacityFailure <;> simp_all

/-! ### Selection -/

theorem mem_of_mem_permittedCandidates {candidate : PathCandidate}
    (h : candidate ∈ authority.permittedCandidates request) :
    candidate ∈ request.pathCandidates := by
  unfold permittedCandidates at h
  split at h
  · exact List.mem_of_find?_eq_some (Option.mem_toList.mp h)
  · split at h
    · exact h
    · exact List.mem_of_mem_take h

theorem path_of_mem_permittedCandidates {candidate : PathCandidate}
    (hrequired : request.requiredPath ≠ 0)
    (h : candidate ∈ authority.permittedCandidates request) :
    candidate.path = request.requiredPath := by
  rw [permittedCandidates, if_pos hrequired] at h
  have hfound := List.find?_some (Option.mem_toList.mp h)
  exact of_decide_eq_true hfound

theorem head_of_mem_permittedCandidates {candidate : PathCandidate}
    (hrequired : request.requiredPath = 0)
    (hsubstitution : authority.substitutionAllowed request = false)
    (h : candidate ∈ authority.permittedCandidates request) :
    request.pathCandidates.head? = some candidate := by
  rw [permittedCandidates, if_neg (not_not.mpr hrequired), hsubstitution] at h
  cases hcandidates : request.pathCandidates with
  | nil => simp [hcandidates] at h
  | cons first rest => simpa [hcandidates, eq_comm] using h

end Authority

end AdmissionFabric
