import AdmissionFabric.Engine.Decision
import AdmissionFabric.Library.SortedSearch
import AdmissionFabric.Model.Policy

/-!
# Published authority

The part of the coordinator's state that adjacent runtimes own: the fencing epoch, the logical
tick, and whatever policy, snapshots and catalogs are currently published, with the index that is
derived from the reservation snapshot. The evaluation of a request reads nothing else except the
ledger and the identity registries.

Only validated inputs become current, and the obligation index is rebuilt whenever the snapshot
is replaced; both facts are fields of the structure.

Source: `src/engine/engine_core.hpp`, `src/engine/engine.cpp`.
-/

namespace AdmissionFabric

open Std (ExtTreeMap)
open SortedSearch (findBy)

variable (obligations : List ProtectedObligation) {α : Type}

/-! ### The obligation index -/

/-- The saturating total of the obligations on each resource. -/
def obligationTotalsOf (obligations : List ProtectedObligation) : ExtTreeMap ResourceId Rate :=
  obligations.foldl (fun totals o =>
    totals.insert o.resource (satAdd (totals.getD o.resource 0) o.reserved)) ∅

/-- The positions of the obligations on each resource. -/
def obligationIndicesOf (obligations : List ProtectedObligation) :
    ExtTreeMap ResourceId (List Nat) :=
  obligations.zipIdx.foldl (fun indices o =>
    indices.insert o.1.resource (indices.getD o.1.resource [] ++ [o.2])) ∅

/-- The obligations of a snapshot that may not be published yet. -/
def obligationsOf (reservations : Option ReservationSnapshot) : List ProtectedObligation :=
  (reservations.map ReservationSnapshot.obligations).getD []

private theorem toNat_foldl_totals (totals : ExtTreeMap ResourceId Rate) (r : ResourceId) :
    ((obligations.foldl (fun totals o =>
      totals.insert o.resource (satAdd (totals.getD o.resource 0) o.reserved)) totals).getD
        r 0).toNat = min ((totals.getD r 0).toNat + obligationLoad obligations r) (2 ^ 64 - 1) := by
  induction obligations generalizing totals with
  | nil =>
    have := toNat_le_maxU64 (totals.getD r 0)
    simp only [List.foldl_nil, obligationLoad, List.filter_nil, List.map_nil, List.sum_nil]
    omega
  | cons o os ih =>
    rw [List.foldl_cons, ih, obligationLoad_cons, ExtTreeMap.getD_insert]
    by_cases h : o.resource = r
    · subst h
      simp only [Std.compare_self, ↓reduceIte, toNat_satAdd]
      omega
    · simp only [Std.compare_eq_iff_eq, h, ↓reduceIte]
      omega

theorem toNat_obligationTotalsOf (r : ResourceId) :
    ((obligationTotalsOf obligations).getD r 0).toNat =
      min (obligationLoad obligations r) (2 ^ 64 - 1) := by
  simpa [obligationTotalsOf] using toNat_foldl_totals obligations ∅ r

private theorem getD_foldl_indices (obligations : List (ProtectedObligation × Nat))
    (indices : ExtTreeMap ResourceId (List Nat)) (r : ResourceId) :
    (obligations.foldl (fun indices o =>
      indices.insert o.1.resource (indices.getD o.1.resource [] ++ [o.2])) indices).getD r [] =
        indices.getD r [] ++ (obligations.filter (·.1.resource = r)).map Prod.snd := by
  induction obligations generalizing indices with
  | nil => simp
  | cons o os ih =>
    rw [List.foldl_cons, ih, ExtTreeMap.getD_insert]
    by_cases h : o.1.resource = r
    · simp [h]
    · simp [h]

theorem mem_obligationIndicesOf {obligations : List ProtectedObligation} {r : ResourceId}
    {i : Nat} :
    i ∈ (obligationIndicesOf obligations).getD r [] ↔
      ∃ o, obligations[i]? = some o ∧ o.resource = r := by
  rw [obligationIndicesOf, getD_foldl_indices]
  simp [List.mk_mem_zipIdx_iff_getElem?]

/-! ### The published authority -/

/-- What the engine waits for. -/
inductive EngineReadiness
  | awaitingPolicy
  | awaitingCapacity
  | awaitingReservations
  | awaitingCatalogs
  | awaitingPaths
  | waitingForReconciliation
  | ready
  deriving DecidableEq, Repr

/-- What has been published, and the epoch it is for. -/
structure Authority where
  epoch : FabricEpoch := 0
  incarnation : CoordinatorIncarnation := 0
  tick : UInt64 := 0
  policy : Option AdmissionPolicy := none
  capacity : Option CapacitySnapshot := none
  reservations : Option ReservationSnapshot := none
  paths : Option PathCatalog := none
  qos : Option QoSClassCatalog := none
  priorities : Option PriorityClassCatalog := none
  obligationTotals : ExtTreeMap ResourceId Rate := ∅
  obligationIndices : ExtTreeMap ResourceId (List Nat) := ∅
  pendingReconciliation : Bool := false
  policyValid : ∀ p ∈ policy, p.validate = .ok () := by simp
  capacityValid : ∀ c ∈ capacity, c.validate = .ok () := by simp
  reservationsValid : ∀ s ∈ reservations, s.validate = .ok () := by simp
  pathsValid : ∀ c ∈ paths, c.validate = .ok () := by simp
  qosValid : ∀ c ∈ qos, c.validate = .ok () := by simp
  prioritiesValid : ∀ c ∈ priorities, c.validate = .ok () := by simp
  totalsIndexed : obligationTotals = obligationTotalsOf (obligationsOf reservations) := by rfl
  indicesIndexed : obligationIndices = obligationIndicesOf (obligationsOf reservations) := by rfl

theorem valid_some {validate : α → Except Status Unit} {a : α} (h : validate a = .ok ()) :
    ∀ x ∈ some a, validate x = .ok () := by
  simpa using h

theorem valid_none {validate : α → Except Status Unit} :
    ∀ x ∈ (none : Option α), validate x = .ok () := by
  simp

namespace Authority

variable {resource : ResourceId}

/-! ### Replacing one input -/

/-- Replace the tick. -/
def withTick (authority : Authority) (tick : UInt64) : Authority := { authority with tick }

/-- Replace the epoch and the incarnation. -/
def withEpoch (authority : Authority) (epoch : FabricEpoch)
    (incarnation : CoordinatorIncarnation) : Authority :=
  { authority with epoch, incarnation }

/-- Replace the flag of a pending reconciliation. -/
def withPending (authority : Authority) (pendingReconciliation : Bool) : Authority :=
  { authority with pendingReconciliation }

/-- Replace the policy. -/
def withPolicy (authority : Authority) (policy : Option AdmissionPolicy)
    (policyValid : ∀ p ∈ policy, p.validate = .ok ()) : Authority :=
  { authority with policy, policyValid }

/-- Replace the capacity. -/
def withCapacity (authority : Authority) (capacity : Option CapacitySnapshot)
    (capacityValid : ∀ c ∈ capacity, c.validate = .ok ()) : Authority :=
  { authority with capacity, capacityValid }

/-- The obligation indices are rebuilt with the snapshot. -/
def withReservations (authority : Authority) (reservations : Option ReservationSnapshot)
    (reservationsValid : ∀ s ∈ reservations, s.validate = .ok ()) : Authority :=
  { authority with
    reservations
    obligationTotals := obligationTotalsOf (obligationsOf reservations)
    obligationIndices := obligationIndicesOf (obligationsOf reservations)
    reservationsValid
    totalsIndexed := rfl
    indicesIndexed := rfl }

/-- Replace the paths. -/
def withPaths (authority : Authority) (paths : Option PathCatalog)
    (pathsValid : ∀ c ∈ paths, c.validate = .ok ()) : Authority :=
  { authority with paths, pathsValid }

/-- Replace the QoS classes. -/
def withQos (authority : Authority) (qos : Option QoSClassCatalog)
    (qosValid : ∀ c ∈ qos, c.validate = .ok ()) : Authority :=
  { authority with qos, qosValid }

/-- Replace the priorities. -/
def withPriorities (authority : Authority) (priorities : Option PriorityClassCatalog)
    (prioritiesValid : ∀ c ∈ priorities, c.validate = .ok ()) : Authority :=
  { authority with priorities, prioritiesValid }

/-! ### Lookups -/

/-- What is published of a resource. -/
def findCapacity (authority : Authority) (resource : ResourceId) : Option ResourceCapacity := do
  findBy ResourceCapacity.resource (← authority.capacity).resources resource

/-- The entry of a resource whose capacity is known. -/
def knownCapacity (authority : Authority) (resource : ResourceId) : Option ResourceCapacity :=
  (authority.findCapacity resource).filter (·.evidence = .known)

/-- What is published of a path. -/
def findPath (authority : Authority) (path : PathId) : Option PathAdmissionFact := do
  findBy PathAdmissionFact.path (← authority.paths).paths path

/-- A published QoS class. -/
def findQos (authority : Authority) (id : QoSClassId) : Option QoSClassFact := do
  findBy QoSClassFact.qos (← authority.qos).classes id

/-- A published priority. -/
def findPriority (authority : Authority) (id : PriorityClassId) : Option PriorityClassFact := do
  findBy PriorityClassFact.priority (← authority.priorities).classes id

/-- The obligations on a resource, saturated. -/
def obligationsFor (authority : Authority) (resource : ResourceId) : Rate :=
  authority.obligationTotals.getD resource 0

/-- The obligations that the index lists for a resource. -/
def indexedObligations (authority : Authority) (resource : ResourceId) :
    List ProtectedObligation :=
  match authority.reservations with
  | none => []
  | some snapshot =>
    (authority.obligationIndices.getD resource []).filterMap fun i => snapshot.obligations[i]?

/-- An obligation on the resource ends before a deadline. -/
def obligationReleasesWithin (authority : Authority) (resource : ResourceId) (horizon : UInt64) :
    Bool :=
  (authority.indexedObligations resource).any fun obligation =>
    !obligation.inviolable && authority.tick < obligation.releaseTick &&
      obligation.releaseTick ≤ horizon

/-- The largest of mandatory headroom, policy share and policy floor, within the capacity. -/
def headroomFor (authority : Authority) (entry : ResourceCapacity) : Rate :=
  let headroom := match authority.policy with
    | none => entry.mandatoryHeadroom
    | some policy =>
      max (max entry.mandatoryHeadroom (permille entry.usable policy.headroomPermille))
        policy.headroomFloor
  min headroom entry.usable

/-- The load that a resource may carry beside its headroom and its obligations. -/
def allowance (authority : Authority) (entry : ResourceCapacity) (resource : ResourceId) : Rate :=
  satSub (satSub entry.usable (authority.headroomFor entry)) (authority.obligationsFor resource)

/-- What is missing, in the order of the checks. -/
def readiness (authority : Authority) : EngineReadiness :=
  match authority.policy with
  | none => .awaitingPolicy
  | some policy =>
    if authority.capacity = none then .awaitingCapacity
    else if authority.reservations = none then .awaitingReservations
    else if authority.qos = none ∨ authority.priorities = none then .awaitingCatalogs
    else if policy.requirePathBinding ∧ authority.paths = none then .awaitingPaths
    else if authority.pendingReconciliation then .waitingForReconciliation
    else .ready

/-! ### What the lookups find -/

theorem findCapacity_eq_some_iff {authority : Authority} {entry : ResourceCapacity} :
    authority.findCapacity resource = some entry ↔
      ∃ c, authority.capacity = some c ∧ entry ∈ c.resources ∧ entry.resource = resource := by
  unfold findCapacity
  cases hc : authority.capacity with
  | none => simp
  | some c =>
    simp only [Option.bind_eq_bind, Option.bind_some, Option.some.injEq, exists_eq_left']
    exact SortedSearch.findBy_eq_some_iff
      (CapacitySnapshot.pairwise_of_validate (authority.capacityValid c hc))

theorem findPath_eq_some_iff {authority : Authority} {path : PathId} {fact : PathAdmissionFact} :
    authority.findPath path = some fact ↔
      ∃ c, authority.paths = some c ∧ fact ∈ c.paths ∧ fact.path = path := by
  unfold findPath
  cases hc : authority.paths with
  | none => simp
  | some c =>
    simp only [Option.bind_eq_bind, Option.bind_some, Option.some.injEq, exists_eq_left']
    exact SortedSearch.findBy_eq_some_iff
      (PathCatalog.pairwise_of_validate (authority.pathsValid c hc))

/-- The obligation load of the published snapshot on a resource. -/
def obligationLoadOn (authority : Authority) (resource : ResourceId) : Nat :=
  obligationLoad (obligationsOf authority.reservations) resource

theorem toNat_obligationsFor (authority : Authority) (resource : ResourceId) :
    (authority.obligationsFor resource).toNat = authority.obligationLoadOn resource := by
  rw [obligationsFor, authority.totalsIndexed, toNat_obligationTotalsOf, obligationLoadOn]
  cases hr : authority.reservations with
  | none => simp [obligationsOf, obligationLoad]
  | some s =>
    have := ReservationSnapshot.obligationLoad_lt_of_validate
      (authority.reservationsValid s hr) resource
    simp only [obligationsOf, Option.map_some, Option.getD_some]
    omega

theorem mem_indexedObligations {authority : Authority} {obligation : ProtectedObligation} :
    obligation ∈ authority.indexedObligations resource ↔
      obligation ∈ obligationsOf authority.reservations ∧ obligation.resource = resource := by
  unfold indexedObligations
  cases hr : authority.reservations with
  | none => simp [obligationsOf]
  | some s =>
    simp only [List.mem_filterMap, authority.indicesIndexed, hr, obligationsOf, Option.map_some,
      Option.getD_some, mem_obligationIndicesOf]
    constructor
    · rintro ⟨i, ⟨o, ho, hresource⟩, hget⟩
      obtain rfl := Option.some.inj (ho.symm.trans hget)
      exact ⟨List.mem_of_getElem? hget, hresource⟩
    · rintro ⟨hmem, hresource⟩
      obtain ⟨i, hget⟩ := List.mem_iff_getElem?.mp hmem
      exact ⟨i, ⟨obligation, hget, hresource⟩, hget⟩

theorem toNat_allowance (authority : Authority) (entry : ResourceCapacity)
    (resource : ResourceId) :
    (authority.allowance entry resource).toNat =
      entry.usable.toNat - (authority.headroomFor entry).toNat -
        authority.obligationLoadOn resource := by
  rw [allowance, toNat_satSub, toNat_satSub, toNat_obligationsFor]

end Authority

end AdmissionFabric
