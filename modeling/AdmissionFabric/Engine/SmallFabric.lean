import AdmissionFabric.Engine.Operation

/-!
# A small fabric

One policy, one class of each kind, a few resources and a path. Concrete runs are written down in
it.
-/

namespace AdmissionFabric

namespace SmallFabric

/-- A policy that permits every request. -/
def policy : AdmissionPolicy := { id := 1, generation := 1, epoch := 1 }

/-- What is known of some resources. -/
def capacity (generation : Generation) (resources : List ResourceCapacity) : CapacitySnapshot :=
  { snapshot := 1, generation, epoch := 1, resources }

/-- A resource whose capacity is known. -/
def known (resource : ResourceId) (generation : Generation) (usable : Rate) : ResourceCapacity :=
  { resource, generation, evidence := .known, usable }

/-- No obligations. -/
def reservations : ReservationSnapshot :=
  { snapshot := 1, generation := 1, epoch := 1, obligations := [] }

/-- A reservation that holds ten on each of two resources, at a generation of its own on each. -/
def reservedOn (first second : Generation) : ReservationSnapshot where
  snapshot := 1
  generation := 1
  epoch := 1
  obligations := [
    { reservation := 3, reservationGeneration := first, resource := 1, reserved := 10 },
    { reservation := 3, reservationGeneration := second, resource := 2, reserved := 10 }]

/-- A path of a hundred over some resources. -/
def pathThrough (resources : List ResourceId) : PathCatalog where
  pathAuthorityGeneration := 1
  epoch := 1
  paths := [{
    path := 7
    pathAuthorityGeneration := 1
    state := .up
    pathUsableCapacity := 100
    resources }]

/-- One class of traffic. -/
def qosCatalog : QoSClassCatalog :=
  { generation := 1
    epoch := 1
    classes := [{ qos := 1, generation := 1, maximumRate := 1000, maximumLatency := 1000 }] }

/-- One priority. -/
def priorityCatalog : PriorityClassCatalog :=
  { generation := 1, epoch := 1, classes := [{ priority := 1, generation := 1 }] }

/-- The publications that make an engine ready. -/
def announce (resources : List ResourceCapacity) : List Operation :=
  [.publishPolicy policy, .publishCapacity (capacity 1 resources),
    .publishReservations reservations, .publishQosCatalog qosCatalog,
    .publishPriorityCatalog priorityCatalog]

/-- A request for resources; the identity serves as request, demand and attempt. -/
def request (id : UInt64) (rate : RateBounds) (resources : List ResourceId) :
    AdmissionRequest where
  request := id
  demand := id
  demandGeneration := 1
  attempt := id
  rate := rate
  qos := 1
  qosGeneration := 1
  priority := 1
  priorityGeneration := 1
  resourceBindings := resources.map fun resource => ⟨resource, 1⟩
  expected := {
    capacitySnapshot := 1
    capacityGeneration := 1
    reservationSnapshot := 1
    reservationGeneration := 1
    policyGeneration := 1
    qosCatalogGeneration := 1
    priorityCatalogGeneration := 1 }

/-- A demand on the path. -/
def boundRequest (id : UInt64) (rate : Rate) : AdmissionRequest :=
  { SmallFabric.request id ⟨rate, rate, rate⟩ [] with
    pathCandidates := [⟨7, 1⟩]
    expected := { (SmallFabric.request id ⟨rate, rate, rate⟩ []).expected with
      pathAuthorityGeneration := 1 } }

end SmallFabric

end AdmissionFabric
