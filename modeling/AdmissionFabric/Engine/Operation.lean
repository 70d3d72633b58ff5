import AdmissionFabric.Engine.Admit
import AdmissionFabric.Engine.Publish
import AdmissionFabric.Engine.Recovery
import AdmissionFabric.Library.Run

/-!
# Operations of the engine

The public calls of the engine as one type. A process performs operations, each with the outcomes
of the disk writes it makes. It attaches a journal and opens it before anything is published, if
it does so at all.

Source: `include/naf/engine/engine.hpp`, `src/engine/engine.cpp`.
-/

namespace AdmissionFabric

/-- A call of the engine. -/
inductive Operation
  | publishPolicy (policy : AdmissionPolicy)
  | publishCapacity (snapshot : CapacitySnapshot)
  | publishReservations (snapshot : ReservationSnapshot)
  | publishPaths (catalog : PathCatalog)
  | publishQosCatalog (catalog : QoSClassCatalog)
  | publishPriorityCatalog (catalog : PriorityClassCatalog)
  | invalidateCapacity
  | invalidatePaths
  | admitRequest (request : AdmissionRequest) (claim : ClaimContext)
  | revalidate (decision : AdmissionDecisionId) (claim : ClaimContext)
  | revoke (decision : AdmissionDecisionId) (reason : RevocationReason) (claim : ClaimContext)
  | registerSession (publisher : PublisherId) (boot : BootId)
  | retireSession (session : SessionNonce)
  | beginNewIncarnation (incarnation : CoordinatorIncarnation)
  | advanceTick (ticks : UInt64)
  | compactJournal

/-- What a call returns. -/
inductive Answer
  | status (result : Except Status Unit)
  | decision (result : Except Status AdmissionDecision)
  | revalidation (result : Except Status RevalidationResult)
  | session (result : Except Status EngineCore.SessionGrant)

namespace EngineCore

/-- Tag the result of a call. -/
def answering {α : Type} (tag : Except Status α → Answer) (outcome : Outcome α) :
    Answer × EngineCore :=
  (tag outcome.1, outcome.2)

@[simp] theorem answering_snd {α : Type} (tag : Except Status α → Answer) (outcome : Outcome α) :
    (answering tag outcome).2 = outcome.2 := by
  obtain ⟨result, core⟩ := outcome
  rfl

/-- The answer to a call and the engine after it. -/
def perform (core : EngineCore) : Operation → Answer × EngineCore
  | .publishPolicy policy => answering .status (core.publishPolicy policy)
  | .publishCapacity snapshot => answering .status (core.publishCapacity snapshot)
  | .publishReservations snapshot => answering .status (core.publishReservations snapshot)
  | .publishPaths catalog => answering .status (core.publishPaths catalog)
  | .publishQosCatalog catalog => answering .status (core.publishQosCatalog catalog)
  | .publishPriorityCatalog catalog => answering .status (core.publishPriorityCatalog catalog)
  | .invalidateCapacity => answering .status core.invalidateCapacity
  | .invalidatePaths => answering .status core.invalidatePaths
  | .admitRequest request claim => answering .decision (core.admitLocked request claim)
  | .revalidate decision claim => answering .revalidation (core.revalidateLocked decision claim)
  | .revoke decision reason claim =>
    answering .revalidation (core.revokeLocked decision reason claim)
  | .registerSession publisher boot => answering .session (core.registerSession publisher boot)
  | .retireSession session => answering .status (core.retireSession session)
  | .beginNewIncarnation incarnation => answering .status (core.beginNewIncarnation incarnation)
  | .advanceTick ticks => (.status (.ok ()), core.advanceTick ticks)
  | .compactJournal => answering .status core.compactLocked

/-- The engine about to make writes with the given outcomes. -/
def onDisk (core : EngineCore) (disk : List DiskOutcome) : EngineCore :=
  { core with journal := core.journal.map fun journal => { journal with disk } }

/-- The engine after a call whose writes have the given outcomes. -/
def next (core : EngineCore) (disk : List DiskOutcome) (operation : Operation) : EngineCore :=
  ((core.onDisk disk).perform operation).2

/-- A fresh engine that has attached a journal and opened it. -/
def boot (config : EngineConfig) (journal : Journal) : RecoveryReport × EngineCore :=
  openDurable ((EngineCore.fresh config).attachJournal journal).2

end EngineCore

/-! ### Runs of calls -/

/-- An operation and the outcomes of its writes. -/
structure Call where
  operation : Operation
  disk : List DiskOutcome := []

namespace EngineCore

/-- The engine after a call. -/
def after (core : EngineCore) (call : Call) : EngineCore :=
  core.next call.disk call.operation

/-- A fresh engine, without a journal or over a new one. -/
def Starting (core : EngineCore) : Prop :=
  (∃ config, core = EngineCore.fresh config) ∨
    ∃ config options disk, core = (boot config { options, disk }).2

/-- The engine after operations whose writes all succeed. -/
def performAll (core : EngineCore) (operations : List Operation) : EngineCore :=
  TransitionSystem.run EngineCore.after core (operations.map fun operation => { operation })

end EngineCore

end AdmissionFabric
