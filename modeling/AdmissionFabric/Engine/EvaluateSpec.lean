import AdmissionFabric.Engine.Admit
import Mathlib.Data.List.Dedup

/-!
# What the evaluation establishes

Specifications of the evaluation stages. A grant is one of the request's targets, all of which
have known capacity with room for the grant; conversely, targets that all have room for the
minimum pass the capacity stage.
-/

namespace AdmissionFabric

variable {limit : Limit} {r : ResourceId} {grant : Grant}

theorem nodup_targetsOf (request : AdmissionRequest) (traversal : List ResourceId) :
    (targetsOf request traversal).Nodup :=
  (List.perm_insertionSort (· ≤ ·) _).nodup_iff.mpr (List.nodup_dedup _)

theorem mem_targetsOf {request : AdmissionRequest} {traversal : List ResourceId} :
    r ∈ targetsOf request traversal ↔
      (∃ b ∈ request.resourceBindings, b.resource = r) ∨ r ∈ traversal := by
  simp [targetsOf, List.mem_insertionSort]

theorem le_rate_cap_iff {rate x : Rate} {kind : BindingConstraintKind} {subject : String}
    {id : Nat} : x ≤ (limit.cap rate kind subject id).rate ↔ x ≤ limit.rate ∧ x ≤ rate := by
  unfold Limit.cap
  split
  · rename_i h
    exact ⟨fun hx => ⟨UInt64.le_trans hx (UInt64.le_of_lt h), hx⟩, fun hx => hx.2⟩
  · rename_i h
    exact ⟨fun hx => ⟨hx, UInt64.le_trans hx (UInt64.not_lt.mp h)⟩, fun hx => hx.1⟩

namespace Authority

variable {resource : ResourceId} {targets : List ResourceId} {ceiling granted : Rate}
    {binding binding' : BindingConstraint} {selectedPath : Option PathAdmissionFact}
    {selection : PathSelection} {entry : ResourceCapacity} {outcome : AdmissionOutcome}
    {authority : Authority} {ledger : AdmittedLoadLedger} {request : AdmissionRequest}

/-! ### The capacity stage -/

/-- What a resource of known capacity has free for new load. -/
def freeOn (authority : Authority) (ledger : AdmittedLoadLedger) (resource : ResourceId) :
    Option Rate :=
  (authority.knownCapacity resource).map fun entry =>
    satSub (authority.allowance entry resource) (ledger.admitted resource)

theorem checkView_viewOf_eq_ok_iff :
    authority.checkView request (authority.viewOf ledger resource entry) = .ok () ↔
      request.rate.minimum ≤
        satSub (authority.allowance entry resource) (ledger.admitted resource) := by
  simp only [checkView, check_bind_eq_ok_iff, rejectIf_eq_ok_iff, UInt64.not_lt]
  simp only [viewOf, allowance, UInt64.le_iff_toNat_le, toNat_satSub]
  omega

theorem scanTargets_spec {limit' : Limit} {views : List ResourceView} :
    (authority.scanTargets ledger request limit views targets).1 = .ok limit' →
      (∀ r ∈ targets, ∃ free ∈ authority.freeOn ledger r, request.rate.minimum ≤ free) ∧
      ∀ x, x ≤ limit'.rate ↔
        x ≤ limit.rate ∧ ∀ r ∈ targets, ∀ free ∈ authority.freeOn ledger r, x ≤ free := by
  induction targets generalizing limit views with
  | nil =>
    intro h
    obtain rfl := Except.ok.inj h
    simp
  | cons r rest ih =>
    intro h
    cases hknown : authority.knownCapacity r with
    | none => simp [scanTargets, hknown] at h
    | some entry =>
      have hfree : authority.freeOn ledger r =
          some (satSub (authority.allowance entry r) (ledger.admitted r)) := by
        rw [freeOn, hknown, Option.map_some]
      cases hcheck : authority.checkView request (authority.viewOf ledger r entry) with
      | error refusal => simp [scanTargets, hknown, hcheck] at h
      | ok u =>
        simp only [scanTargets, hknown, hcheck] at h
        obtain ⟨hpass, hrate⟩ := ih h
        refine ⟨?_, fun x => ?_⟩
        · intro r' hr'
          rcases List.mem_cons.mp hr' with rfl | hr'
          · exact ⟨_, hfree, checkView_viewOf_eq_ok_iff.mp hcheck⟩
          · exact hpass r' hr'
        · rw [hrate, le_rate_cap_iff]
          simp only [List.mem_cons, forall_eq_or_imp, hfree, Option.mem_def, Option.some.injEq,
            forall_eq', viewOf, and_assoc]

theorem scanTargets_isOk
    (h : ∀ r ∈ targets, ∃ free ∈ authority.freeOn ledger r, request.rate.minimum ≤ free)
    (limit : Limit) (views : List ResourceView) :
    ∃ limit', (authority.scanTargets ledger request limit views targets).1 = .ok limit' := by
  induction targets generalizing limit views with
  | nil => exact ⟨limit, rfl⟩
  | cons r rest ih =>
    obtain ⟨free, hfree, hmin⟩ := h r List.mem_cons_self
    obtain ⟨entry, hknown, rfl⟩ := Option.map_eq_some_iff.mp hfree
    have hcheck := checkView_viewOf_eq_ok_iff.mpr hmin
    obtain ⟨limit', hrest⟩ := ih (fun r' hr' => h r' (List.mem_cons_of_mem _ hr'))
      (limit.cap (authority.viewOf ledger r entry).availableForNew .admittedLoad "resource" r.toNat)
      (views ++ [authority.viewOf ledger r entry])
    exact ⟨limit', by simpa only [scanTargets, hknown, hcheck] using hrest⟩

/-! ### The grant -/

theorem decideGrant_eq_ok
    (h : authority.decideGrant request ceiling binding = .ok (outcome, granted, binding')) :
    granted = min ceiling request.rate.maximum ∧ request.rate.minimum ≤ granted ∧
      outcome.isAdmitting = true := by
  simp only [decideGrant, check_bind_eq_ok_iff, rejectIf_eq_ok_iff, UInt64.not_lt] at h
  obtain ⟨hmin, h⟩ := h
  split at h
  · simp only [check_bind_eq_ok_iff, pure, Except.pure, Except.ok.injEq, Prod.mk.injEq] at h
    obtain ⟨-, rfl, rfl, -⟩ := h
    exact ⟨rfl, hmin, rfl⟩
  · obtain ⟨rfl, rfl, -⟩ := h
    exact ⟨rfl, hmin, rfl⟩

theorem degraded_or_desired_le
    (h : authority.decideGrant request ceiling binding = .ok (outcome, granted, binding')) :
    authority.degradeAllowed request = true ∨ request.rate.desired ≤ granted := by
  simp only [decideGrant, check_bind_eq_ok_iff, rejectIf_eq_ok_iff, UInt64.not_lt] at h
  obtain ⟨-, h⟩ := h
  split at h
  · simp only [check_bind_eq_ok_iff, rejectIf_eq_ok_iff, not_not] at h
    exact Or.inl h.1
  · rename_i hdesired
    simp only [pure, Except.pure, Except.ok.injEq, Prod.mk.injEq] at h
    exact Or.inr (h.2.1 ▸ UInt64.not_lt.mp hdesired)

theorem checkExpectations_eq_ok_iff :
    authority.checkExpectations request = .ok () ↔
      authority.checkExpectations { request with resourceBindings := [] } = .ok () ∧
        ∀ binding ∈ request.resourceBindings, authority.checkBinding binding = .ok () := by
  simp only [checkExpectations, check_bind_eq_ok_iff, forM_eq_ok_iff, List.not_mem_nil,
    false_implies, implies_true, true_and]
  constructor
  · rintro ⟨h1, h2, h3, h4, h5, h6, h7, h8⟩
    exact ⟨⟨h1, h2, h3, h4, h5, h6, h8⟩, h7⟩
  · rintro ⟨⟨h1, h2, h3, h4, h5, h6, h8⟩, h7⟩
    exact ⟨h1, h2, h3, h4, h5, h6, h7, h8⟩

theorem resolve_eq_ok_iff :
    authority.resolve ledger request = .ok (selection, targets) ↔
      authority.checkReadiness = .ok () ∧ authority.checkExpectations request = .ok () ∧
        authority.checkPolicy request = .ok () ∧
        authority.selectPath ledger request = .ok selection ∧
        targets = targetsOf request selection.traversal ∧ targets ≠ [] := by
  simp only [resolve, check_bind_eq_ok_iff, bind_eq_ok_iff (authority.selectPath ledger request),
    rejectIf_eq_ok_iff, pure, Except.pure, Except.ok.injEq, Prod.mk.injEq]
  constructor
  · rintro ⟨h1, h2, h3, selection', h4, h5, rfl, rfl⟩
    exact ⟨h1, h2, h3, h4, rfl, h5⟩
  · rintro ⟨h1, h2, h3, h4, rfl, h5⟩
    exact ⟨h1, h2, h3, selection, h4, h5, rfl, rfl⟩

theorem evaluate_eq_ok (h : authority.evaluate ledger request = .ok grant) :
    ∃ selection ceiling binding,
      authority.resolve ledger request = .ok (selection, grant.targets) ∧
      (authority.evaluateCapacity ledger request grant.targets
        (authority.selectedFact selection)).1 = .ok (ceiling, binding) ∧
      authority.decideGrant request ceiling binding =
        .ok (grant.outcome, grant.granted, grant.binding) ∧
      grant.evidence.path = selection.selected ∧
      grant.evidence.pathGeneration = selection.selectedGeneration := by
  unfold evaluate at h
  cases hresolve : authority.resolve ledger request with
  | error refusal => simp [hresolve] at h
  | ok resolved =>
    obtain ⟨selection, targets⟩ := resolved
    simp only [hresolve] at h
    cases hcap : (authority.evaluateCapacity ledger request targets
        (authority.selectedFact selection)).1 with
    | error refusal => simp [hcap, Except.bind] at h
    | ok c =>
      obtain ⟨ceiling, binding⟩ := c
      simp only [hcap, Except.bind] at h
      cases hgrant : authority.decideGrant request ceiling binding with
      | error refusal => simp [hgrant] at h
      | ok g =>
        simp only [hgrant, Except.ok.injEq] at h
        subst h
        exact ⟨selection, ceiling, binding, rfl, hcap, hgrant, rfl, rfl⟩

theorem evaluateCapacity_eq_ok
    (h : (authority.evaluateCapacity ledger request targets selectedPath).1 =
      .ok (ceiling, binding)) :
    (∀ r ∈ targets, ∃ free ∈ authority.freeOn ledger r, request.rate.minimum ≤ free) ∧
      ∀ x, x ≤ ceiling ↔ x ≤ request.rate.maximum ∧
        (∀ r ∈ targets, ∀ free ∈ authority.freeOn ledger r, x ≤ free) ∧
        ∀ fact ∈ selectedPath, x ≤ pathFree ledger fact fact.path := by
  unfold evaluateCapacity at h
  cases hscan : (authority.scanTargets ledger request { rate := request.rate.maximum } []
      targets).1 with
  | error refusal => simp [hscan, Except.bind, Except.map] at h
  | ok limit =>
    obtain ⟨hpass, hrate⟩ := scanTargets_spec hscan
    refine ⟨hpass, fun x => ?_⟩
    simp only [hscan, Except.bind] at h
    cases hpath : capByPath ledger request selectedPath limit with
    | error refusal => simp [hpath, Except.map] at h
    | ok limit' =>
      simp only [hpath, Except.map, bindingOf, Except.ok.injEq, Prod.mk.injEq] at h
      obtain ⟨rfl, -⟩ := h
      cases selectedPath with
      | none =>
        obtain rfl := Except.ok.inj hpath
        simp [hrate]
      | some fact =>
        simp only [capByPath, check_bind_eq_ok_iff, rejectIf_eq_ok_iff, pure, Except.pure,
          Except.ok.injEq] at hpath
        obtain ⟨-, rfl⟩ := hpath
        simp [le_rate_cap_iff, hrate, and_assoc]

theorem evaluateCapacity_isOk
    (h : ∀ r ∈ targets, ∃ free ∈ authority.freeOn ledger r, request.rate.minimum ≤ free)
    (hpath : ∀ fact ∈ selectedPath, request.rate.minimum ≤ pathFree ledger fact fact.path) :
    ∃ ceiling binding, (authority.evaluateCapacity ledger request targets selectedPath).1 =
      .ok (ceiling, binding) := by
  obtain ⟨limit, hscan⟩ := scanTargets_isOk h { rate := request.rate.maximum } []
  simp only [evaluateCapacity, hscan, Except.bind]
  cases selectedPath with
  | none => exact ⟨limit.rate, (bindingOf request limit).2, rfl⟩
  | some fact =>
    have hnot : ¬ pathFree ledger fact fact.path < request.rate.minimum :=
      UInt64.not_lt.mpr (hpath fact rfl)
    exact ⟨_, _, by simp only [capByPath, rejectIf, hnot, ↓reduceIte]; rfl⟩

theorem decideGrant_isOk (hmin : request.rate.minimum ≤ min ceiling request.rate.maximum)
    (hdesired : authority.degradeAllowed request = true ∨
      request.rate.desired ≤ min ceiling request.rate.maximum) :
    ∃ granted, authority.decideGrant request ceiling binding = .ok granted := by
  have hnot : ¬ min ceiling request.rate.maximum < request.rate.minimum := UInt64.not_lt.mpr hmin
  unfold decideGrant
  simp only [rejectIf, hnot, ↓reduceIte, bind, Except.bind]
  split
  · rename_i hlt
    have hdegrade := hdesired.resolve_right (UInt64.not_le.mpr hlt)
    simp only [hdegrade, not_true_eq_false, ↓reduceIte]
    exact ⟨_, rfl⟩
  · exact ⟨_, rfl⟩

theorem evaluate_isOk {granted : AdmissionOutcome × Rate × BindingConstraint}
    (hresolve : authority.resolve ledger request = .ok (selection, targets))
    (hcap : (authority.evaluateCapacity ledger request targets
      (authority.selectedFact selection)).1 = .ok (ceiling, binding))
    (hgrant : authority.decideGrant request ceiling binding = .ok granted) :
    ∃ grant, authority.evaluate ledger request = .ok grant ∧
      grant.evidence.path = selection.selected := by
  simp only [evaluate, hresolve, hcap, Except.bind, hgrant]
  exact ⟨_, rfl, rfl⟩

/-- A resolved request is granted if every target and the selected path have room for it. -/
theorem evaluate_of_room (hresolve : authority.resolve ledger request = .ok (selection, targets))
    (hminimum : request.rate.minimum ≤ request.rate.desired)
    (hmaximum : request.rate.desired ≤ request.rate.maximum)
    (hroom : ∀ r ∈ targets, ∃ free ∈ authority.freeOn ledger r, request.rate.minimum ≤ free ∧
      (authority.degradeAllowed request = true ∨ request.rate.desired ≤ free))
    (hpath : ∀ fact ∈ authority.selectedFact selection,
      request.rate.minimum ≤ pathFree ledger fact fact.path ∧
        (authority.degradeAllowed request = true ∨
          request.rate.desired ≤ pathFree ledger fact fact.path)) :
    ∃ grant, authority.evaluate ledger request = .ok grant ∧
      grant.evidence.path = selection.selected := by
  obtain ⟨ceiling, binding, hcap⟩ := evaluateCapacity_isOk
    (fun r hr => (hroom r hr).imp fun _ hfree => ⟨hfree.1, hfree.2.1⟩)
    fun fact hfact => (hpath fact hfact).1
  have hceiling := (evaluateCapacity_eq_ok hcap).2
  -- a rate within the window that fits everywhere is within the grant
  have hle : ∀ rate, rate ≤ request.rate.maximum →
      (∀ r ∈ targets, ∀ free ∈ authority.freeOn ledger r, rate ≤ free) →
      (∀ fact ∈ authority.selectedFact selection, rate ≤ pathFree ledger fact fact.path) →
      rate ≤ min ceiling request.rate.maximum := fun rate hmax hfree hfact =>
    Std.le_min_iff.mpr ⟨(hceiling rate).mpr ⟨hmax, hfree, hfact⟩, hmax⟩
  have hgrant : ∃ granted, authority.decideGrant request ceiling binding = .ok granted := by
    refine decideGrant_isOk (hle _ (UInt64.le_trans hminimum hmaximum) ?_
      fun fact hfact => (hpath fact hfact).1) ?_
    · intro r hr free hfree
      obtain ⟨free', hfree', hmin, -⟩ := hroom r hr
      exact Option.some.inj (hfree.symm.trans hfree') ▸ hmin
    · refine or_iff_not_imp_left.mpr fun hnot => hle _ hmaximum (fun r hr free hfree => ?_)
        fun fact hfact => (hpath fact hfact).2.resolve_left hnot
      obtain ⟨free', hfree', -, hdesired⟩ := hroom r hr
      exact Option.some.inj (hfree.symm.trans hfree') ▸ hdesired.resolve_left hnot
  obtain ⟨granted, hgrant⟩ := hgrant
  exact evaluate_isOk hresolve hcap hgrant

theorem granted_le_free (h : authority.evaluate ledger request = .ok grant)
    (hr : r ∈ grant.targets) : ∃ free ∈ authority.freeOn ledger r, grant.granted ≤ free := by
  obtain ⟨selection, ceiling, binding, -, hcap, hgrant, -⟩ := evaluate_eq_ok h
  obtain ⟨hpass, hceiling⟩ := evaluateCapacity_eq_ok hcap
  obtain ⟨free, hfree, -⟩ := hpass r hr
  have hle : grant.granted ≤ ceiling := (decideGrant_eq_ok hgrant).1 ▸ Std.min_le_left
  exact ⟨free, hfree, ((hceiling _).mp hle).2.1 r hr free hfree⟩

theorem granted_le_pathFree
    (hcap : (authority.evaluateCapacity ledger request targets selectedPath).1 =
      .ok (ceiling, binding))
    (hgrant : authority.decideGrant request ceiling binding = .ok (outcome, granted, binding'))
    {fact : PathAdmissionFact} (hfact : selectedPath = some fact) :
    granted ≤ pathFree ledger fact fact.path := by
  have hle : granted ≤ ceiling := (decideGrant_eq_ok hgrant).1 ▸ Std.min_le_left
  exact (((evaluateCapacity_eq_ok hcap).2 _).mp hle).2.2 fact hfact

theorem isAdmitting_of_evaluate (h : authority.evaluate ledger request = .ok grant) :
    grant.outcome.isAdmitting = true := by
  obtain ⟨selection, ceiling, binding, -, -, hgrant, -⟩ := evaluate_eq_ok h
  exact (decideGrant_eq_ok hgrant).2.2

theorem nodup_targets_of_evaluate (h : authority.evaluate ledger request = .ok grant) :
    grant.targets.Nodup := by
  obtain ⟨selection, ceiling, binding, hresolve, -⟩ := evaluate_eq_ok h
  rw [(resolve_eq_ok_iff.mp hresolve).2.2.2.2.1]
  exact nodup_targetsOf request selection.traversal

end Authority

/-! ### The verdict -/

theorem EngineCore.verdict_eq_grant {core : EngineCore} {request : AdmissionRequest}
    {claim : ClaimContext} (h : core.verdict request claim = .grant grant) :
    request.validate = .ok () ∧ core.checkFence claim = .ok () ∧
      (core.attempts.classify (probe request)).disposition = .new ∧
      core.toAuthority.evaluate core.ledger request = .ok grant := by
  unfold EngineCore.verdict at h
  cases hvalid : request.validate with
  | error status => simp [hvalid] at h
  | ok u =>
    cases hfence : core.checkFence claim with
    | error refusal => simp [hvalid, hfence] at h
    | ok u =>
      simp only [hvalid, hfence] at h
      cases hclass : (core.attempts.classify (probe request)).disposition with
      | replay =>
        simp only [hclass, replayVerdict] at h
        split at h <;> try split at h
        all_goals cases h
      | conflict => simp [hclass] at h
      | new =>
        simp only [hclass] at h
        cases heval : core.toAuthority.evaluate core.ledger request with
        | error refusal => simp [heval] at h
        | ok g =>
          simp only [heval, Verdict.grant.injEq] at h
          subst h
          exact ⟨rfl, rfl, rfl, rfl⟩

end AdmissionFabric
