import AdmissionFabric.Engine.Enforce

/-!
# Publication and sessions

The calls by which adjacent runtimes replace the authority the engine evaluates against. Every
publication makes the same comparisons: the input is valid, the engine has an epoch, and the
generation does not move backwards; republishing the current generation with the same content
changes nothing. Policies and capacity snapshots must carry the epoch of the engine; the other
inputs are not compared with it.

Policies, capacity snapshots and reservation snapshots bound the admitted load, so installing one
runs the enforcement pass.

Source: `src/engine/engine.cpp`.
-/

namespace AdmissionFabric

/-! ### Content -/

/-- Equal up to the generation. -/
def AdmissionPolicy.contentEqual (a b : AdmissionPolicy) : Bool :=
  a.id = b.id ∧ a.generation = b.generation ∧ a.headroomPermille = b.headroomPermille ∧
    a.headroomFloor = b.headroomFloor ∧ a.allowDegraded = b.allowDegraded ∧
    a.allowPreemptibleAdmission = b.allowPreemptibleAdmission ∧
    a.requirePathBinding = b.requirePathBinding ∧
    a.requireReservationReference = b.requireReservationReference ∧
    a.allowPathSubstitution = b.allowPathSubstitution ∧ a.onContention = b.onContention ∧
    a.allowedQos = b.allowedQos ∧ a.allowedPriorities = b.allowedPriorities ∧
    a.maxExplanationConstraints = b.maxExplanationConstraints ∧
    a.maxExplanationBytes = b.maxExplanationBytes ∧
    a.maxEffectiveResources = b.maxEffectiveResources ∧
    a.deferHorizonTicks = b.deferHorizonTicks

/-- Equal up to identity and generation. -/
def CapacitySnapshot.contentEqual (a b : CapacitySnapshot) : Bool :=
  a.snapshot = b.snapshot ∧ a.generation = b.generation ∧ a.resources = b.resources

/-- Equal up to identity and generation. -/
def ReservationSnapshot.contentEqual (a b : ReservationSnapshot) : Bool :=
  a.snapshot = b.snapshot ∧ a.generation = b.generation ∧ a.obligations = b.obligations

/-- Equal up to the generation. -/
def PathCatalog.contentEqual (a b : PathCatalog) : Bool :=
  a.pathAuthorityGeneration = b.pathAuthorityGeneration ∧ a.paths = b.paths

/-- Equal up to the generation. -/
def QoSClassCatalog.contentEqual (a b : QoSClassCatalog) : Bool :=
  a.generation = b.generation ∧ a.classes = b.classes

/-- Equal up to the generation. -/
def PriorityClassCatalog.contentEqual (a b : PriorityClassCatalog) : Bool :=
  a.generation = b.generation ∧ a.classes = b.classes

/-! ### The comparisons of a publication -/

/-- The status of an input for another epoch. -/
def epochMismatch (message : String) : Status := ⟨.epochMismatch, message⟩

/-- Compare a generation with the current one. The result says whether the input is to be
installed; otherwise it is the one that is current. -/
def checkAdvance {α : Type} (generationOf : α → Generation) (contentEqual : α → α → Bool)
    (what : String) (current : Option α) (input : α) : Except Status Bool :=
  match current with
  | none => .ok true
  | some existing => do
    rejectIf (generationOf input < generationOf existing)
      ⟨.staleGeneration, what ++ " generation would move backwards"⟩
    if generationOf input = generationOf existing then do
      rejectIf (!contentEqual input existing)
        ⟨.conflictIdentity, what ++ " generation republished with different content"⟩
      return false
    else return true

/-- The comparisons of an input that need not carry the epoch of the engine. -/
def checkPublication {α : Type} (generationOf : α → Generation) (contentEqual : α → α → Bool)
    (what : String) (epoch : FabricEpoch) (current : Option α) (input : α) :
    Except Status Bool := do
  rejectIf (epoch = 0) (epochMismatch "engine has no fabric epoch")
  checkAdvance generationOf contentEqual what current input

/-- The comparisons of an input that must carry the epoch of the engine. -/
def checkFencedPublication {α : Type} (generationOf : α → Generation)
    (contentEqual : α → α → Bool) (epochOf : α → FabricEpoch) (what : String)
    (epoch : FabricEpoch) (current : Option α) (input : α) : Except Status Bool := do
  rejectIf (epoch = 0) (epochMismatch "engine has no fabric epoch")
  rejectIf (epochOf input ≠ epoch)
    (epochMismatch (what ++ " epoch does not match the fabric epoch"))
  checkAdvance generationOf contentEqual what current input

namespace EngineCore

/-- Carry out a publication: refuse it, ignore it, or install the input. -/
def publish (core : EngineCore) (checked : Except Status Bool) (install : Outcome Unit) :
    Outcome Unit :=
  match checked with
  | .error status => (.error status, core)
  | .ok false => (.ok (), core)
  | .ok true => install

/-! ### Installed inputs -/

/-- Install a policy. -/
def withPolicy (core : EngineCore) (policy : AdmissionPolicy)
    (h : policy.validate = .ok ()) : EngineCore :=
  { core with
    toAuthority := (core.toAuthority.withPolicy (some policy) (valid_some h)).withTick
      (max core.tick policy.observedTick) }

/-- Install a capacity snapshot. -/
def withCapacity (core : EngineCore) (snapshot : CapacitySnapshot)
    (h : snapshot.validate = .ok ()) : EngineCore :=
  { core with
    toAuthority := (core.toAuthority.withCapacity (some snapshot) (valid_some h)).withTick
      (max core.tick snapshot.observedTick) }

/-- Install reservations. -/
def withReservations (core : EngineCore) (snapshot : ReservationSnapshot)
    (h : snapshot.validate = .ok ()) : EngineCore :=
  { core with
    toAuthority := (core.toAuthority.withReservations (some snapshot) (valid_some h)).withTick
      (max core.tick snapshot.observedTick) }

/-- Install paths. -/
def withPaths (core : EngineCore) (catalog : PathCatalog)
    (h : catalog.validate = .ok ()) : EngineCore :=
  { core with
    toAuthority := (core.toAuthority.withPaths (some catalog) (valid_some h)).withTick
      (max core.tick catalog.observedTick) }

/-- Install QoS classes. -/
def withQos (core : EngineCore) (catalog : QoSClassCatalog)
    (h : catalog.validate = .ok ()) : EngineCore :=
  { core with
    toAuthority := (core.toAuthority.withQos (some catalog) (valid_some h)).withTick
      (max core.tick catalog.observedTick) }

/-- Install priorities. -/
def withPriorities (core : EngineCore) (catalog : PriorityClassCatalog)
    (h : catalog.validate = .ok ()) : EngineCore :=
  { core with
    toAuthority := (core.toAuthority.withPriorities (some catalog) (valid_some h)).withTick
      (max core.tick catalog.observedTick) }

/-! ### Publication -/

/-- Take a policy, record it and enforce it. -/
def publishPolicy (core : EngineCore) (policy : AdmissionPolicy) : Outcome Unit :=
  match h : policy.validate with
  | .error status => (.error status, core)
  | .ok () => core.publish
      (checkFencedPublication (·.generation) AdmissionPolicy.contentEqual (·.epoch) "policy"
        core.epoch core.policy policy)
      ((core.writeRecord (.policyConfig policy)).andThen fun _ core =>
        (core.withPolicy policy h).enforceAccountingLocked .policyPublication)

/-- Take a capacity snapshot and enforce it. -/
def publishCapacity (core : EngineCore) (snapshot : CapacitySnapshot) : Outcome Unit :=
  match h : snapshot.validate with
  | .error status => (.error status, core)
  | .ok () => core.publish
      (checkFencedPublication (·.generation) CapacitySnapshot.contentEqual (·.epoch) "capacity"
        core.epoch core.capacity snapshot)
      ((core.withCapacity snapshot h).enforceAccountingLocked .capacityPublication)

/-- Take reservations and enforce them. -/
def publishReservations (core : EngineCore) (snapshot : ReservationSnapshot) : Outcome Unit :=
  match h : snapshot.validate with
  | .error status => (.error status, core)
  | .ok () => core.publish
      (checkPublication (·.generation) ReservationSnapshot.contentEqual "reservation"
        core.epoch core.reservations snapshot)
      ((core.withReservations snapshot h).enforceAccountingLocked .reservationPublication)

/-- Take a path catalog. -/
def publishPaths (core : EngineCore) (catalog : PathCatalog) : Outcome Unit :=
  match h : catalog.validate with
  | .error status => (.error status, core)
  | .ok () => core.publish
      (checkPublication (·.pathAuthorityGeneration) PathCatalog.contentEqual "path authority"
        core.epoch core.paths catalog)
      (.ok (), core.withPaths catalog h)

/-- Take QoS classes. -/
def publishQosCatalog (core : EngineCore) (catalog : QoSClassCatalog) : Outcome Unit :=
  match h : catalog.validate with
  | .error status => (.error status, core)
  | .ok () => core.publish
      (checkPublication (·.generation) QoSClassCatalog.contentEqual "qos catalog"
        core.epoch core.qos catalog)
      (.ok (), core.withQos catalog h)

/-- Take priorities. -/
def publishPriorityCatalog (core : EngineCore) (catalog : PriorityClassCatalog) : Outcome Unit :=
  match h : catalog.validate with
  | .error status => (.error status, core)
  | .ok () => core.publish
      (checkPublication (·.generation) PriorityClassCatalog.contentEqual "priority catalog"
        core.epoch core.priorities catalog)
      (.ok (), core.withPriorities catalog h)

/-- Forget the capacity. -/
def invalidateCapacity (core : EngineCore) : Outcome Unit :=
  (.ok (), { core with toAuthority := core.toAuthority.withCapacity none valid_none })

/-- Forget the paths. -/
def invalidatePaths (core : EngineCore) : Outcome Unit :=
  (.ok (), { core with toAuthority := core.toAuthority.withPaths none valid_none })

/-! ### Sessions, incarnations and time -/

/-- What a registered publisher is told. -/
structure SessionGrant where
  session : SessionNonce
  incarnation : CoordinatorIncarnation
  epoch : FabricEpoch
  publisher : PublisherId
  boot : BootId
  deriving DecidableEq, Repr

/-- Register a session under a new nonce. -/
def registerSession (core : EngineCore) (publisher : PublisherId) (boot : BootId) :
    Outcome SessionGrant :=
  if publisher = 0 ∨ boot = 0 then
    (.error ⟨.invalidArgument, "publisher and boot identities are required"⟩, core)
  else if core.epoch = 0 then (.error (epochMismatch "engine has no fabric epoch"), core)
  else if core.sessions.size ≥ core.config.sessionCapacity then
    (.error ⟨.busy, "session capacity is exhausted"⟩, core)
  else
    let nonce := core.nextSessionNonce
    (.ok ⟨nonce, core.incarnation, core.epoch, publisher, boot⟩, { core with
      nextSessionNonce := nonce + 1
      sessions := core.sessions.insertIfNew nonce ⟨nonce, publisher, boot⟩ })

/-- Forget a session. -/
def retireSession (core : EngineCore) (session : SessionNonce) : Outcome Unit :=
  if (core.sessions[session]?).isSome then
    (.ok (), { core with sessions := core.sessions.erase session })
  else (.error ⟨.notFound, "session is not live"⟩, core)

/-- Advance the fencing epoch and drop every session. -/
def beginNewIncarnation (core : EngineCore) (incarnation : CoordinatorIncarnation) :
    Outcome Unit :=
  if core.epoch + 1 = 0 then
    (.error ⟨.arithmeticOverflow, "fabric epoch is exhausted"⟩, core)
  else writeBoot { core with
    toAuthority := core.toAuthority.withEpoch (core.epoch + 1) incarnation
    sessions := ∅
    nextSessionNonce := 1 }

/-- Move the clock. -/
def advanceTick (core : EngineCore) (ticks : UInt64) : EngineCore :=
  { core with toAuthority := core.toAuthority.withTick (satAdd core.tick ticks) }

end EngineCore

end AdmissionFabric
