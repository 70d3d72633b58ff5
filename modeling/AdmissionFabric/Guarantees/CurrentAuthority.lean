import AdmissionFabric.Engine.SmallFabric
import AdmissionFabric.Engine.VerdictSpec

/-!
# An admission rests on current authority

A fresh admission is authorized by what is published at that moment: each input that the request
states a revision of is published at exactly that revision, the policy and the requested classes
permit the request, and every resource of the grant has known capacity.

References to reservations are the exception. A reservation may hold capacity on several resources,
by one obligation each, and the obligations of a snapshot need not agree on its generation. Only
the first of them is compared with the reference.
-/

namespace AdmissionFabric

variable {grant : Grant}

/-! ### What each published input has to say -/

/-- The snapshot is the one the request states, and knows the bindings at their generations. -/
structure CapacitySnapshot.Current (snapshot : CapacitySnapshot) (request : AdmissionRequest) :
    Prop where
  identity : request.expected.capacitySnapshot = snapshot.snapshot
  generation : request.expected.capacityGeneration = snapshot.generation
  bindings : ∀ binding ∈ request.resourceBindings, ∃ entry ∈ snapshot.resources,
    entry.resource = binding.resource ∧ entry.evidence = .known ∧
      entry.generation = binding.generation

/-- The reservation snapshot is the one the request states. -/
structure ReservationSnapshot.Current (snapshot : ReservationSnapshot)
    (request : AdmissionRequest) : Prop where
  identity : request.expected.reservationSnapshot = snapshot.snapshot
  generation : request.expected.reservationGeneration = snapshot.generation

/-- The catalog is the one the request states, and lists the candidates at their generations. -/
structure PathCatalog.Current (catalog : PathCatalog) (request : AdmissionRequest) : Prop where
  generation : request.expected.pathAuthorityGeneration = catalog.pathAuthorityGeneration
  candidates : ∀ candidate ∈ request.pathCandidates, ∃ fact ∈ catalog.paths,
    fact.path = candidate.path ∧
      fact.pathAuthorityGeneration = candidate.pathAuthorityGeneration

/-- The catalog is the one the request states, and its class has room for the request. -/
structure QoSClassCatalog.Current (catalog : QoSClassCatalog) (request : AdmissionRequest) :
    Prop where
  generation : request.expected.qosCatalogGeneration = catalog.generation
  requested : ∃ fact ∈ catalog.classes, fact.qos = request.qos ∧
    fact.generation = request.qosGeneration ∧ fact.minimumRate ≤ request.rate.minimum ∧
    request.rate.maximum ≤ fact.maximumRate ∧ request.maximumLatency ≤ fact.maximumLatency

/-- The priority catalog is the one the request states, and lists its class. -/
structure PriorityClassCatalog.Current (catalog : PriorityClassCatalog)
    (request : AdmissionRequest) : Prop where
  generation : request.expected.priorityCatalogGeneration = catalog.generation
  requested : ∃ fact ∈ catalog.classes, fact.priority = request.priority ∧
    fact.generation = request.priorityGeneration

/-- The policy is the one the request states, and permits the request. -/
structure AdmissionPolicy.Permits (policy : AdmissionPolicy) (request : AdmissionRequest) :
    Prop where
  generation : request.expected.policyGeneration = policy.generation
  qos : policy.allowedQos = [] ∨ request.qos ∈ policy.allowedQos
  priority : policy.allowedPriorities = [] ∨ request.priority ∈ policy.allowedPriorities
  preemptible : request.preemptible = true → policy.allowPreemptibleAdmission = true
  reservation : policy.requireReservationReference = true → request.reservationRefs ≠ []
  obligations : request.requestsObligationPreemption = false

/-- Whether a request depends on the path catalog. -/
def AdmissionPolicy.UsesPaths (policy : AdmissionPolicy) (request : AdmissionRequest) : Prop :=
  request.pathCandidates ≠ [] ∨ policy.requirePathBinding = true

/-- The published inputs authorize a request. -/
structure Authority.Authorizes (authority : Authority) (request : AdmissionRequest) : Prop where
  reconciled : authority.pendingReconciliation = false
  capacity : ∃ snapshot, authority.capacity = some snapshot ∧ snapshot.Current request
  reservations : ∃ snapshot, authority.reservations = some snapshot ∧ snapshot.Current request
  qos : ∃ catalog, authority.qos = some catalog ∧ catalog.Current request
  priorities : ∃ catalog, authority.priorities = some catalog ∧ catalog.Current request
  policy : ∃ policy, authority.policy = some policy ∧ policy.Permits request ∧
    (policy.UsesPaths request → ∃ catalog, authority.paths = some catalog ∧
      catalog.Current request)

/-- A reservation is published, and its obligations carry the generation of the reference. -/
def Authority.ReferenceCurrent (authority : Authority) (ref : ReservationRef) : Prop :=
  (∃ o ∈ obligationsOf authority.reservations, o.reservation = ref.reservation) ∧
    ∀ o ∈ obligationsOf authority.reservations, o.reservation = ref.reservation →
      o.reservationGeneration = ref.generation

/-- The published obligations of a reservation agree on its generation. -/
def Authority.OneGeneration (authority : Authority) (reservation : ReservationId) : Prop :=
  ∀ o ∈ obligationsOf authority.reservations, ∀ o' ∈ obligationsOf authority.reservations,
    o.reservation = reservation → o'.reservation = reservation →
      o.reservationGeneration = o'.reservationGeneration

/-! ### What the stages establish -/

namespace Authority

variable {subject : String} {observed : Generation} {ref : ReservationRef}
    {catalog : QoSClassCatalog} {authority : Authority} {request : AdmissionRequest}

theorem reconciled_of_checkReadiness (h : authority.checkReadiness = .ok ()) :
    authority.pendingReconciliation = false := by
  unfold checkReadiness at h
  cases hready : authority.readiness <;> simp only [hready, reduceCtorEq] at h
  unfold readiness at hready
  grind

theorem requireGeneration_eq_ok_iff {current : Generation} :
    requireGeneration observed current subject = .ok () ↔ observed ≠ 0 ∧ observed = current := by
  simp [requireGeneration, check_bind_eq_ok_iff]

theorem checkCapacityExpectation_eq_ok {expected : AuthorityExpectation}
    (h : authority.checkCapacityExpectation expected = .ok ()) :
    ∃ snapshot, authority.capacity = some snapshot ∧
      expected.capacitySnapshot = snapshot.snapshot ∧
      expected.capacityGeneration = snapshot.generation := by
  unfold checkCapacityExpectation at h
  cases hcapacity : authority.capacity with
  | none => simp [hcapacity] at h
  | some snapshot =>
    simp only [hcapacity, check_bind_eq_ok_iff, rejectIf_eq_ok_iff, not_not,
      requireGeneration_eq_ok_iff] at h
    exact ⟨snapshot, rfl, h.2.2.1, h.2.2.2.2⟩

theorem checkReservationExpectation_eq_ok
    (h : authority.checkReservationExpectation request.expected = .ok ()) :
    ∃ snapshot, authority.reservations = some snapshot ∧ snapshot.Current request := by
  unfold checkReservationExpectation at h
  cases hreservations : authority.reservations with
  | none => simp [hreservations] at h
  | some snapshot =>
    simp only [hreservations, check_bind_eq_ok_iff, rejectIf_eq_ok_iff, not_not,
      requireGeneration_eq_ok_iff] at h
    exact ⟨snapshot, rfl, h.2.2.1, h.2.2.2.2⟩

theorem exists_of_requireGeneration {α : Type} {published : Option α}
    {generation : α → Generation}
    (h : requireGeneration observed ((published.map generation).getD 0) subject = .ok ()) :
    ∃ a, published = some a ∧ observed = generation a := by
  obtain ⟨hknown, heq⟩ := requireGeneration_eq_ok_iff.mp h
  cases published with
  | none => exact absurd heq hknown
  | some a => exact ⟨a, rfl, heq⟩

theorem checkBinding_eq_ok {snapshot : CapacitySnapshot} {binding : ResourceBinding}
    (hcapacity : authority.capacity = some snapshot)
    (h : authority.checkBinding binding = .ok ()) :
    ∃ entry ∈ snapshot.resources, entry.resource = binding.resource ∧ entry.evidence = .known ∧
      entry.generation = binding.generation := by
  unfold checkBinding at h
  cases hfind : authority.findCapacity binding.resource with
  | none => simp [hfind] at h
  | some entry =>
    simp only [hfind, check_bind_eq_ok_iff, rejectIf_eq_ok_iff, not_not] at h
    obtain ⟨c, hc, hmem, hresource⟩ := findCapacity_eq_some_iff.mp hfind
    obtain rfl : snapshot = c := Option.some.inj (hcapacity ▸ hc)
    exact ⟨entry, hmem, hresource, h.1, h.2.symm⟩

theorem checkCandidate_eq_ok {catalog : PathCatalog} {candidate : PathCandidate}
    (hpaths : authority.paths = some catalog)
    (h : authority.checkCandidate candidate = .ok ()) :
    ∃ fact ∈ catalog.paths, fact.path = candidate.path ∧
      fact.pathAuthorityGeneration = candidate.pathAuthorityGeneration := by
  unfold checkCandidate at h
  cases hfind : authority.findPath candidate.path with
  | none => simp [hfind] at h
  | some fact =>
    simp only [hfind, rejectIf_eq_ok_iff, not_not] at h
    obtain ⟨c, hc, hmem, hpath⟩ := findPath_eq_some_iff.mp hfind
    obtain rfl : catalog = c := Option.some.inj (hpaths ▸ hc)
    exact ⟨fact, hmem, hpath, h.symm⟩

theorem mem_of_findQos {id : QoSClassId} {fact : QoSClassFact}
    (hqos : authority.qos = some catalog) (h : authority.findQos id = some fact) :
    fact ∈ catalog.classes ∧ fact.qos = id := by
  simp only [findQos, hqos, Option.bind_eq_bind, Option.bind_some] at h
  exact SortedSearch.mem_of_findBy_eq_some h

theorem qosCurrent (hqos : authority.qos = some catalog)
    (hgeneration : request.expected.qosCatalogGeneration = catalog.generation)
    (hclass : authority.checkQosClass request = .ok ())
    (hwindow : authority.checkQosWindow request = .ok ()) : catalog.Current request := by
  unfold checkQosClass at hclass
  unfold checkQosWindow at hwindow
  cases hfind : authority.findQos request.qos with
  | none => simp [hfind] at hclass
  | some fact =>
    simp only [hfind, check_bind_eq_ok_iff, rejectIf_eq_ok_iff, not_not, UInt64.not_lt,
      GT.gt] at hclass hwindow
    obtain ⟨hmem, hid⟩ := mem_of_findQos hqos hfind
    exact ⟨hgeneration, fact, hmem, hid, hclass.symm, hwindow.1, hwindow.2.1, hwindow.2.2⟩

theorem priorityCurrent {catalog : PriorityClassCatalog}
    (hpriorities : authority.priorities = some catalog)
    (hgeneration : request.expected.priorityCatalogGeneration = catalog.generation)
    (hclass : authority.checkPriorityClass request = .ok ()) : catalog.Current request := by
  unfold checkPriorityClass at hclass
  cases hfind : authority.findPriority request.priority with
  | none => simp [hfind] at hclass
  | some fact =>
    simp only [hfind, rejectIf_eq_ok_iff, not_not] at hclass
    simp only [findPriority, hpriorities, Option.bind_eq_bind, Option.bind_some] at hfind
    obtain ⟨hmem, hid⟩ := SortedSearch.mem_of_findBy_eq_some hfind
    exact ⟨hgeneration, fact, hmem, hid, hclass.symm⟩

theorem checkPathExpectation_eq_ok {policy : AdmissionPolicy}
    (hpolicy : authority.policy = some policy) (huses : policy.UsesPaths request)
    (h : authority.checkPathExpectation request = .ok ()) :
    ∃ catalog, authority.paths = some catalog ∧
      request.expected.pathAuthorityGeneration = catalog.pathAuthorityGeneration := by
  have hneeded : authority.pathRequired ∨ request.pathCandidates ≠ [] := by
    rcases huses with hcandidates | hrequired
    · exact Or.inr hcandidates
    · exact Or.inl (by simpa [pathRequired, hpolicy] using hrequired)
  rw [checkPathExpectation, if_pos hneeded] at h
  cases hpaths : authority.paths with
  | none => simp [hpaths] at h
  | some catalog =>
    simp only [hpaths, requireGeneration_eq_ok_iff] at h
    exact ⟨catalog, rfl, h.2⟩

theorem checkPolicy_eq_ok {policy : AdmissionPolicy} (hpolicy : authority.policy = some policy)
    (hgeneration : request.expected.policyGeneration = policy.generation)
    (h : authority.checkPolicy request = .ok ()) :
    policy.Permits request ∧ authority.checkQosWindow request = .ok () := by
  simp only [checkPolicy, hpolicy, check_bind_eq_ok_iff, rejectIf_eq_ok_iff] at h
  obtain ⟨hqos, hpriority, hreservation, hpreemptible, hobligations, hwindow⟩ := h
  refine ⟨⟨hgeneration, ?_, ?_, ?_, ?_, ?_⟩, hwindow⟩
  · exact or_iff_not_imp_left.mpr fun hne => not_not.mp fun hn => hqos ⟨hne, hn⟩
  · exact or_iff_not_imp_left.mpr fun hne => not_not.mp fun hn => hpriority ⟨hne, hn⟩
  · intro hp
    simpa [hp] using hpreemptible
  · exact fun hr hnil => hreservation ⟨hr, hnil⟩
  · simpa using hobligations

theorem authorizes_of_checks (hready : authority.checkReadiness = .ok ())
    (hexpected : authority.checkExpectations request = .ok ())
    (hpermitted : authority.checkPolicy request = .ok ()) : authority.Authorizes request := by
  simp only [checkExpectations, check_bind_eq_ok_iff, forM_eq_ok_iff] at hexpected
  obtain ⟨hcapacity, hreservations, hpolicy, hqos, hpriorities, hpath, hbindings, hcandidates,
    hqosClass, hpriorityClass, -⟩ := hexpected
  obtain ⟨snapshot, hsnapshot, hidentity, hgeneration⟩ := checkCapacityExpectation_eq_ok hcapacity
  obtain ⟨policy, hsome, hpolicyGeneration⟩ := exists_of_requireGeneration hpolicy
  obtain ⟨qos, hqosSome, hqosGeneration⟩ := exists_of_requireGeneration hqos
  obtain ⟨priorities, hprioritiesSome, hpriorityGeneration⟩ :=
    exists_of_requireGeneration hpriorities
  obtain ⟨hpermits, hwindow⟩ := checkPolicy_eq_ok hsome hpolicyGeneration hpermitted
  refine {
    reconciled := reconciled_of_checkReadiness hready
    capacity := ⟨snapshot, hsnapshot, hidentity, hgeneration,
      fun b hb => checkBinding_eq_ok hsnapshot (hbindings b hb)⟩
    reservations := checkReservationExpectation_eq_ok hreservations
    qos := ⟨qos, hqosSome, qosCurrent hqosSome hqosGeneration hqosClass hwindow⟩
    priorities := ⟨priorities, hprioritiesSome,
      priorityCurrent hprioritiesSome hpriorityGeneration hpriorityClass⟩
    policy := ⟨policy, hsome, hpermits, fun huses => ?_⟩ }
  obtain ⟨catalog, hcatalog, hstated⟩ := checkPathExpectation_eq_ok hsome huses hpath
  exact ⟨catalog, hcatalog, hstated, fun c hc => checkCandidate_eq_ok hcatalog (hcandidates c hc)⟩

theorem checkReservationRef_eq_ok (h : authority.checkReservationRef ref = .ok ()) :
    ∃ o ∈ obligationsOf authority.reservations,
      o.reservation = ref.reservation ∧ o.reservationGeneration = ref.generation := by
  unfold checkReservationRef at h
  cases hfind : (obligationsOf authority.reservations).find?
      (·.reservation = ref.reservation) with
  | none => simp [hfind] at h
  | some o =>
    simp only [hfind, rejectIf_eq_ok_iff, not_not] at h
    exact ⟨o, List.mem_of_find?_eq_some hfind, by simpa using List.find?_some hfind, h⟩

theorem referenceCurrent_iff (h : authority.checkReservationRef ref = .ok ()) :
    authority.ReferenceCurrent ref ↔ authority.OneGeneration ref.reservation := by
  obtain ⟨o, ho, hreservation, hgeneration⟩ := checkReservationRef_eq_ok h
  constructor
  · rintro ⟨-, hall⟩ a ha b hb hra hrb
    rw [hall a ha hra, hall b hb hrb]
  · intro hone
    exact ⟨⟨o, ho, hreservation⟩, fun a ha hra =>
      (hone a ha o ho hra hreservation).trans hgeneration⟩

theorem known_of_evaluate {ledger : AdmittedLoadLedger}
    (h : authority.evaluate ledger request = .ok grant) {r : ResourceId} (hr : r ∈ grant.targets) :
    ∃ snapshot entry, authority.capacity = some snapshot ∧ entry ∈ snapshot.resources ∧
      entry.resource = r ∧ entry.evidence = .known := by
  obtain ⟨free, hfree, -⟩ := granted_le_free h hr
  obtain ⟨entry, hknown, -⟩ := Option.map_eq_some_iff.mp hfree
  obtain ⟨hfind, hevidence⟩ := Option.filter_eq_some_iff.mp hknown
  obtain ⟨snapshot, hsnapshot, hmem, hresource⟩ := findCapacity_eq_some_iff.mp hfind
  exact ⟨snapshot, entry, hsnapshot, hmem, hresource, of_decide_eq_true hevidence⟩

end Authority

/-! ### Fresh admissions -/

namespace EngineCore

variable {core core' : EngineCore} {request : AdmissionRequest} {claim : ClaimContext}
  {decision : AdmissionDecision}

theorem authorizes_of_verdict (h : core.verdict request claim = .grant grant) :
    core.Authorizes request := by
  obtain ⟨-, -, -, hevaluate⟩ := verdict_eq_grant h
  obtain ⟨selection, ceiling, binding, hresolve, -⟩ := Authority.evaluate_eq_ok hevaluate
  obtain ⟨hready, hexpected, hpermitted, -⟩ := Authority.resolve_eq_ok_iff.mp hresolve
  exact Authority.authorizes_of_checks hready hexpected hpermitted

/-- A fresh admitting decision rests on a request that keeps its contract and that the published
inputs authorize, and every resource it holds load on is known to the capacity snapshot. -/
theorem authorized_of_admitLocked (h : core.admitLocked request claim = (.ok decision, core'))
    (hadmitting : decision.outcome.isAdmitting = true)
    (hfresh : decision.idempotentReplay = false) :
    request.validate = .ok () ∧ core.Authorizes request ∧
      ∀ held ∈ core'.ledger.held decision.decision, ∃ snapshot entry,
        core.capacity = some snapshot ∧ entry ∈ snapshot.resources ∧
          entry.resource = held.resource ∧ entry.evidence = .known := by
  obtain ⟨grant, hverdict, -⟩ := admitLocked_fresh h hadmitting hfresh
  obtain ⟨hvalid, -, -, hevaluate⟩ := verdict_eq_grant hverdict
  refine ⟨hvalid, authorizes_of_verdict hverdict, ?_⟩
  intro held hheld
  rw [held_of_admitLocked hverdict h, AdmittedLoadLedger.newEntries, List.map_map] at hheld
  obtain ⟨resource, htarget, rfl⟩ := List.mem_map.mp hheld
  exact Authority.known_of_evaluate hevaluate htarget

/-- The references of a fresh admission are all current exactly if for each of them the published
obligations of its reservation agree on the generation. -/
theorem referencesCurrent_iff (h : core.admitLocked request claim = (.ok decision, core'))
    (hadmitting : decision.outcome.isAdmitting = true)
    (hfresh : decision.idempotentReplay = false) :
    (∀ ref ∈ request.reservationRefs, core.ReferenceCurrent ref) ↔
      ∀ ref ∈ request.reservationRefs, core.OneGeneration ref.reservation := by
  obtain ⟨grant, hverdict, -⟩ := admitLocked_fresh h hadmitting hfresh
  obtain ⟨-, -, -, hevaluate⟩ := verdict_eq_grant hverdict
  obtain ⟨selection, ceiling, binding, hresolve, -⟩ := Authority.evaluate_eq_ok hevaluate
  obtain ⟨-, hexpected, -, -⟩ := Authority.resolve_eq_ok_iff.mp hresolve
  simp only [Authority.checkExpectations, check_bind_eq_ok_iff, forM_eq_ok_iff] at hexpected
  obtain ⟨-, -, -, -, -, -, -, -, -, -, hrefs⟩ := hexpected
  exact forall₂_congr fun ref hmem => Authority.referenceCurrent_iff (hrefs ref hmem)

section Examples

open SmallFabric

/-- An engine with two resources under a reservation, and with a path over the second. -/
def reservedCore (first second : Generation) : EngineCore :=
  (EngineCore.fresh {}).performAll [.publishPolicy policy,
    .publishCapacity (capacity 1 [known 1 1 50, known 2 1 50]),
    .publishReservations (reservedOn first second), .publishQosCatalog qosCatalog,
    .publishPriorityCatalog priorityCatalog, .publishPaths (pathThrough [2])]

/-- A request for one resource and the path that refers to the reservation. -/
def pathReferring : AdmissionRequest :=
  { boundRequest 1 30 with resourceBindings := [⟨1, 1⟩], reservationRefs := [⟨3, 1⟩] }

/-- A grant of thirty on both resources is authorized. -/
theorem authorized_reservedCore : ∃ decision core',
    (reservedCore 1 1).admitLocked pathReferring {} = (.ok decision, core') ∧
      (reservedCore 1 1).Authorizes pathReferring ∧
      (core'.ledger.held decision.decision).map (·.resource) = [1, 2] := by
  have hgrants : (reservedCore 1 1).grantsFresh pathReferring {} = true := by decide +kernel
  have hheld : (((reservedCore 1 1).admitLocked pathReferring {}).2.ledger.held 1).map
      (·.resource) = [1, 2] := by decide +kernel
  have hfirst : ((reservedCore 1 1).admitLocked pathReferring {}).1.toOption.all
      (·.decision = 1) = true := by decide +kernel
  obtain ⟨decision, core', hcall, hadmitting, hfresh⟩ := grantsFresh_eq_true_iff.mp hgrants
  have hauthorizes := (authorized_of_admitLocked hcall hadmitting hfresh).2.1
  rw [hcall] at hheld hfirst
  obtain hone : decision.decision = 1 := by simpa [Except.toOption] using hfirst
  exact ⟨decision, core', hcall, hauthorizes, hone ▸ hheld⟩

/-- A request that refers to the reservation at its first generation. -/
def referring : AdmissionRequest :=
  { SmallFabric.request 1 ⟨30, 30, 30⟩ [1, 2] with reservationRefs := [⟨3, 1⟩] }

/-- The obligations of the reservation agree. -/
theorem referencesCurrent_reservedCore : (reservedCore 1 1).grantsFresh referring {} = true ∧
    ∀ ref ∈ referring.reservationRefs, (reservedCore 1 1).ReferenceCurrent ref := by
  have hgrants : (reservedCore 1 1).grantsFresh referring {} = true := by decide +kernel
  have hreservations : (reservedCore 1 1).reservations = some (reservedOn 1 1) := by decide +kernel
  obtain ⟨decision, core', hcall, hadmitting, hfresh⟩ := grantsFresh_eq_true_iff.mp hgrants
  refine ⟨hgrants, (referencesCurrent_iff hcall hadmitting hfresh).mpr fun ref _ => ?_⟩
  rw [Authority.OneGeneration, hreservations]
  simp [obligationsOf, reservedOn]

/-- The second obligation of the reservation has moved on, and the request is admitted all the
same. -/
theorem not_referenceCurrent_reservedCore :
    (reservedCore 1 2).grantsFresh referring {} = true ∧
      ⟨3, 1⟩ ∈ referring.reservationRefs ∧ ¬ (reservedCore 1 2).ReferenceCurrent ⟨3, 1⟩ := by
  have hreservations : (reservedCore 1 2).reservations = some (reservedOn 1 2) := by decide +kernel
  refine ⟨by decide +kernel, List.mem_singleton_self _, fun h => ?_⟩
  rw [Authority.ReferenceCurrent, hreservations] at h
  simp [obligationsOf, reservedOn] at h

end Examples

end EngineCore

end AdmissionFabric
