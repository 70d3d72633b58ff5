import AdmissionFabric.Core.Checked
import AdmissionFabric.Core.Status

/-!
# Authoritative fabric state inputs

The snapshots and catalogs that adjacent runtimes publish: capacity, protected obligations,
paths, QoS classes and priority classes. Each is validated as a whole before it can become
current authority; `validate` refuses, and never repairs, an input that is malformed.

The `..._validate_ok` theorems state the part of what a validator accepts that the evaluation
relies on: ordered identities, so that a binary search finds what a linear scan finds, and
obligation sums that fit in 64 bits.

Source: `include/naf/model/state.hpp`, `src/model/state.cpp`.
-/

namespace AdmissionFabric

/-- Whether an authority has actually published an observation. -/
inductive EvidenceState
  | unknown
  | known
  deriving DecidableEq, Repr

/-- The state of a path. -/
inductive PathState
  | unknown
  | up
  | down
  deriving DecidableEq, Repr

/-! ### Snapshots and catalogs -/

/-- Usable capacity of one governed resource. -/
structure ResourceCapacity where
  resource : ResourceId
  generation : Generation
  evidence : EvidenceState := .unknown
  usable : Rate := 0
  mandatoryHeadroom : Rate := 0
  deriving DecidableEq, Repr

/-- One immutable capacity observation for a whole resource set. -/
structure CapacitySnapshot where
  snapshot : CapacitySnapshotId
  generation : Generation
  epoch : FabricEpoch
  observedTick : UInt64 := 0
  resources : List ResourceCapacity
  deriving DecidableEq, Repr

/-- Capacity held by a reservation that admission must preserve. -/
structure ProtectedObligation where
  reservation : ReservationId
  reservationGeneration : Generation
  resource : ResourceId
  reserved : Rate
  priority : PriorityClassId := 0
  releaseTick : UInt64 := 0
  inviolable : Bool := true
  deriving DecidableEq, Repr

/-- One immutable obligation observation. -/
structure ReservationSnapshot where
  snapshot : ReservationSnapshotId
  generation : Generation
  epoch : FabricEpoch
  observedTick : UInt64 := 0
  obligations : List ProtectedObligation
  deriving DecidableEq, Repr

/-- Admission-relevant facts about a path, with its traversal set. -/
structure PathAdmissionFact where
  path : PathId
  pathAuthorityGeneration : Generation
  state : PathState := .unknown
  pathUsableCapacity : Rate := 0
  pathLatency : Latency := 0
  resources : List ResourceId
  deriving DecidableEq, Repr

/-- The published paths. -/
structure PathCatalog where
  pathAuthorityGeneration : Generation
  epoch : FabricEpoch
  observedTick : UInt64 := 0
  paths : List PathAdmissionFact
  deriving DecidableEq, Repr

/-- A QoS class. -/
structure QoSClassFact where
  qos : QoSClassId
  generation : Generation
  minimumRate : Rate := 0
  maximumRate : Rate
  maximumLatency : Latency
  degradationAllowed : Bool := true
  deriving DecidableEq, Repr

/-- The published QoS classes. -/
structure QoSClassCatalog where
  generation : Generation
  epoch : FabricEpoch
  observedTick : UInt64 := 0
  classes : List QoSClassFact
  deriving DecidableEq, Repr

/-- A priority. -/
structure PriorityClassFact where
  priority : PriorityClassId
  generation : Generation
  rank : UInt32 := 0
  preemptible : Bool := false
  deriving DecidableEq, Repr

/-- The published priorities. -/
structure PriorityClassCatalog where
  generation : Generation
  epoch : FabricEpoch
  observedTick : UInt64 := 0
  classes : List PriorityClassFact
  deriving DecidableEq, Repr

/-! ### Validation -/

/-- A generation has to be well formed. -/
def checkGeneration (generation : Generation) (what : String) : Except Status Unit :=
  rejectIf (¬ generation.isWellFormed) (malformed (what ++ " generation is not well formed"))

/-- Unlike a generation, an epoch may be the maximum: only `0` is refused. -/
def checkEpoch (epoch : FabricEpoch) (what : String) : Except Status Unit :=
  rejectIf (epoch = 0) (malformed (what ++ " epoch is not well formed"))

/-- An UNKNOWN observation carries no numbers, a known one has room for its headroom. -/
def ResourceCapacity.check (entry : ResourceCapacity) : Except Status Unit := do
  checkGeneration entry.generation "resource capacity"
  match entry.evidence with
  | .unknown =>
    rejectIf (entry.usable ≠ 0 ∨ entry.mandatoryHeadroom ≠ 0)
      (malformed "unknown capacity evidence must not carry values")
  | .known =>
    rejectIf (entry.mandatoryHeadroom > entry.usable)
      ⟨.capacityViolation, "mandatory headroom exceeds usable capacity for resource "
        ++ toString entry.resource.toNat⟩

/-- The contract of a capacity snapshot. -/
def CapacitySnapshot.validate (snapshot : CapacitySnapshot) : Except Status Unit := do
  rejectIf (snapshot.snapshot = 0) (malformed "capacity snapshot id is unknown")
  checkGeneration snapshot.generation "capacity snapshot"
  checkEpoch snapshot.epoch "capacity snapshot"
  rejectIf (snapshot.resources.length > Limits.maxResources)
    (oversized "capacity snapshot has too many resources")
  checkIncreasing ResourceCapacity.resource
    (malformed "capacity entry has an unknown resource id")
    (malformed "capacity snapshot resources are not strictly increasing")
    ResourceCapacity.check none snapshot.resources

/-- Known identities in order of resource and reservation, with an overflow latch for each. -/
def checkObligations : Option (ResourceId × ReservationId) →
    Std.ExtTreeMap ResourceId SumLatch → List ProtectedObligation → Except Status Unit
  | _, _, [] => .ok ()
  | previous, perResource, obligation :: rest => do
    rejectIf (obligation.reservation = 0) (malformed "obligation has an unknown reservation id")
    rejectIf (obligation.resource = 0) (malformed "obligation has an unknown resource id")
    checkGeneration obligation.reservationGeneration "reservation"
    rejectIf (∃ p ∈ previous, obligation.resource < p.1)
      (malformed "reservation snapshot obligations are not ordered by resource")
    rejectIf (∃ p ∈ previous, obligation.resource = p.1 ∧ obligation.reservation ≤ p.2)
      (malformed "reservation snapshot has duplicate obligations for one resource")
    let latch := (perResource.getD obligation.resource {}).add obligation.reserved
    rejectIf (latch.overflow = true)
      ⟨.arithmeticOverflow, "protected obligations overflow for resource "
        ++ toString obligation.resource.toNat⟩
    checkObligations (some (obligation.resource, obligation.reservation))
      (perResource.insert obligation.resource latch) rest

/-- The contract of reservations. -/
def ReservationSnapshot.validate (snapshot : ReservationSnapshot) : Except Status Unit := do
  rejectIf (snapshot.snapshot = 0) (malformed "reservation snapshot id is unknown")
  checkGeneration snapshot.generation "reservation snapshot"
  checkEpoch snapshot.epoch "reservation snapshot"
  rejectIf (snapshot.obligations.length > Limits.maxObligations)
    (oversized "reservation snapshot has too many obligations")
  checkObligations none ∅ snapshot.obligations

/-- The checks on one path beyond its identity. -/
def PathAdmissionFact.check (fact : PathAdmissionFact) : Except Status Unit := do
  checkGeneration fact.pathAuthorityGeneration "path"
  rejectIf (fact.resources.length > Limits.maxPathResources)
    (oversized "path traversal set is too large")
  checkIncreasing id
    (malformed "path traversal set has an unknown resource id")
    (malformed "path traversal set is not strictly increasing")
    (fun _ => .ok ()) none fact.resources

/-- The contract of a path catalog. -/
def PathCatalog.validate (catalog : PathCatalog) : Except Status Unit := do
  checkGeneration catalog.pathAuthorityGeneration "path authority"
  checkEpoch catalog.epoch "path authority"
  rejectIf (catalog.paths.length > Limits.maxPaths) (oversized "path catalog has too many paths")
  checkIncreasing PathAdmissionFact.path
    (malformed "path catalog entry has an unknown path id")
    (malformed "path catalog paths are not strictly increasing")
    PathAdmissionFact.check none catalog.paths

/-- The contract of a QoS class. -/
def QoSClassFact.check (fact : QoSClassFact) : Except Status Unit := do
  checkGeneration fact.generation "qos class"
  rejectIf (fact.minimumRate > fact.maximumRate)
    (malformed "qos class minimum rate exceeds maximum rate")
  rejectIf (fact.maximumRate = 0) (malformed "qos class maximum rate is zero")

/-- The contract of QoS classes. -/
def QoSClassCatalog.validate (catalog : QoSClassCatalog) : Except Status Unit := do
  checkGeneration catalog.generation "qos catalog"
  checkEpoch catalog.epoch "qos catalog"
  rejectIf (catalog.classes.length > Limits.maxQoSClasses) (oversized "qos catalog is too large")
  checkIncreasing QoSClassFact.qos
    (malformed "qos catalog entry has an unknown class id")
    (malformed "qos catalog classes are not strictly increasing")
    QoSClassFact.check none catalog.classes

/-- The loop over priority classes, with the ranks already taken. -/
def checkPriorityClasses : Option PriorityClassId → List UInt32 → List PriorityClassFact →
    Except Status Unit
  | _, _, [] => .ok ()
  | previous, ranks, fact :: rest => do
    rejectIf (fact.priority = 0) (malformed "priority catalog entry has an unknown class id")
    rejectIf (∃ p ∈ previous, fact.priority ≤ p)
      (malformed "priority catalog classes are not strictly increasing")
    checkGeneration fact.generation "priority class"
    rejectIf (fact.rank ∈ ranks)
      (malformed ("priority catalog has duplicate rank " ++ toString fact.rank.toNat))
    checkPriorityClasses (some fact.priority) (fact.rank :: ranks) rest

/-- The contract of priorities. -/
def PriorityClassCatalog.validate (catalog : PriorityClassCatalog) : Except Status Unit := do
  checkGeneration catalog.generation "priority catalog"
  checkEpoch catalog.epoch "priority catalog"
  rejectIf (catalog.classes.length > Limits.maxPriorityClasses)
    (oversized "priority catalog is too large")
  checkPriorityClasses none [] catalog.classes

/-! ### What validation guarantees -/

theorem CapacitySnapshot.pairwise_of_validate {snapshot : CapacitySnapshot}
    (h : snapshot.validate = .ok ()) :
    snapshot.resources.Pairwise fun a b => a.resource < b.resource := by
  simp only [validate, check_bind_eq_ok_iff, checkIncreasing_none_eq_ok_iff] at h
  exact h.2.2.2.2.1

theorem PathCatalog.pairwise_of_validate {catalog : PathCatalog}
    (h : catalog.validate = .ok ()) :
    catalog.paths.Pairwise fun a b => a.path < b.path := by
  simp only [validate, check_bind_eq_ok_iff, checkIncreasing_none_eq_ok_iff] at h
  exact h.2.2.2.1

theorem QoSClassCatalog.pairwise_of_validate {catalog : QoSClassCatalog}
    (h : catalog.validate = .ok ()) :
    catalog.classes.Pairwise fun a b => a.qos < b.qos := by
  simp only [validate, check_bind_eq_ok_iff, checkIncreasing_none_eq_ok_iff] at h
  exact h.2.2.2.1

theorem checkPriorityClasses_increasing {previous : Option PriorityClassId}
    {ranks : List UInt32} {classes : List PriorityClassFact}
    (h : checkPriorityClasses previous ranks classes = .ok ()) :
    classes.Pairwise (fun a b => a.priority < b.priority) ∧
      ∀ p ∈ previous, ∀ fact ∈ classes, p < fact.priority := by
  induction classes generalizing previous ranks with
  | nil => simp
  | cons fact rest ih =>
    simp only [checkPriorityClasses, check_bind_eq_ok_iff, rejectIf_eq_ok_iff] at h
    obtain ⟨-, hprevious, -, -, hrest⟩ := h
    obtain ⟨hpairwise, hafter⟩ := ih hrest
    have hfirst : ∀ other ∈ rest, fact.priority < other.priority := hafter fact.priority rfl
    refine ⟨List.pairwise_cons.mpr ⟨hfirst, hpairwise⟩, fun p hp => ?_⟩
    have hlt : p < fact.priority := UInt64.not_le.mp fun hle => hprevious ⟨p, hp, hle⟩
    intro other hother
    rcases List.mem_cons.mp hother with rfl | hother
    · exact hlt
    · exact UInt64.lt_trans hlt (hfirst other hother)

theorem PriorityClassCatalog.pairwise_of_validate {catalog : PriorityClassCatalog}
    (h : catalog.validate = .ok ()) :
    catalog.classes.Pairwise fun a b => a.priority < b.priority := by
  simp only [validate, check_bind_eq_ok_iff] at h
  exact (checkPriorityClasses_increasing h.2.2.2).1

/-- The load that a list of obligations holds on one resource, as a natural number. -/
def obligationLoad (obligations : List ProtectedObligation) (resource : ResourceId) : Nat :=
  ((obligations.filter (·.resource = resource)).map (·.reserved.toNat)).sum

theorem obligationLoad_cons (o : ProtectedObligation) (os : List ProtectedObligation)
    (resource : ResourceId) :
    obligationLoad (o :: os) resource =
      (if o.resource = resource then o.reserved.toNat else 0) + obligationLoad os resource := by
  by_cases h : o.resource = resource <;> simp [obligationLoad, h]

theorem obligationLoad_lt_of_checkObligations {previous : Option (ResourceId × ReservationId)}
    {perResource : Std.ExtTreeMap ResourceId SumLatch} {obligations : List ProtectedObligation}
    (h : checkObligations previous perResource obligations = .ok ()) (resource : ResourceId) :
    (perResource.getD resource {}).total.toNat + obligationLoad obligations resource < 2 ^ 64 := by
  induction obligations generalizing previous perResource with
  | nil => exact (perResource.getD resource {}).total.toNat_lt
  | cons o os ih =>
    simp only [checkObligations, check_bind_eq_ok_iff, rejectIf_eq_ok_iff] at h
    obtain ⟨-, -, -, -, -, hlatch, hrest⟩ := h
    have hsum := ih hrest
    rw [obligationLoad_cons]
    by_cases hr : o.resource = resource
    · -- the latch of this resource has absorbed the head of the list
      subst hr
      have hadd := (SumLatch.total_add_of_not_overflow (Bool.eq_false_iff.mpr hlatch))
      simp only [Std.ExtTreeMap.getD_insert_self] at hsum
      simp only [↓reduceIte]
      omega
    · have hne : compare o.resource resource ≠ .eq := by simpa using hr
      rw [Std.ExtTreeMap.getD_insert] at hsum
      simp only [hne, hr, ↓reduceIte] at hsum ⊢
      omega

theorem ReservationSnapshot.obligationLoad_lt_of_validate {snapshot : ReservationSnapshot}
    (h : snapshot.validate = .ok ()) (resource : ResourceId) :
    obligationLoad snapshot.obligations resource < 2 ^ 64 := by
  simp only [validate, check_bind_eq_ok_iff] at h
  have := obligationLoad_lt_of_checkObligations h.2.2.2.2 resource
  omega

end AdmissionFabric
