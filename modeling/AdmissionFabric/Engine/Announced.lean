import AdmissionFabric.Engine.Transactions

/-!
# Who changes what is announced

Deciding, releasing and compacting leave the fencing identity, the published inputs and the
sessions alone; each publication replaces exactly its own input, and only if its comparisons let
it.
-/

namespace AdmissionFabric

/-- Whether an operation announces something to the engine. -/
def Operation.announcing : Operation → Bool
  | .admitRequest _ _ | .revalidate _ _ | .revoke _ _ _ | .advanceTick _ | .compactJournal => false
  | _ => true

/-- Whether an operation begins an incarnation. -/
def Operation.beginsIncarnation : Operation → Bool
  | .beginNewIncarnation _ => true
  | _ => false

namespace EngineCore

variable {outcome : Outcome Unit} {operation : Operation}

theorem transactional_announced (a : Announced) : Transactional fun core => core.announced = a where
  refusal core request claim reason evidence recordAttempt h := by
    generalize hcall : core.consumeIdentity.finishRefusal _ _ _ = outcome
    cases finishRefusal_effect hcall <;> exact h
  grant core request claim grant _ h := by
    generalize hcall : core.consumeIdentity.finishAdmission _ _ _ = outcome
    cases finishAdmission_effect hcall with
    | committed _ _ _ =>
      rw [compactIfNeededLocked_snd]
      exact h
    | _ => exact h
  release core d reason explanation _ h := by
    generalize hcall : core.releaseDecisionLocked d reason .revoked explanation = outcome
    cases releaseDecisionLocked_effect hcall <;> exact h
  mark _ _ _ _ _ h := h
  note _ _ _ h := h
  clearFlags _ h := h
  steady _ _ _ hannounced h := hannounced.trans h

theorem announced_enforceAccountingLocked (core : EngineCore) (trigger : EnforcementTrigger) :
    (core.enforceAccountingLocked trigger).2.announced = core.announced :=
  (transactional_announced core.announced).enforceAccountingLocked (fun _ => trivial) rfl trigger

theorem announced_perform (core : EngineCore) (hop : operation.announcing = false) :
    (core.perform operation).2.announced = core.announced := by
  have h := transactional_announced core.announced
  cases operation <;> simp only [Operation.announcing, Bool.true_eq_false] at hop
  all_goals simp only [perform, answering_snd]
  case admitRequest request claim => exact h.admitLocked rfl request claim
  case revalidate decision claim => exact h.revalidateLocked rfl trivial claim
  case revoke decision reason claim => exact h.revokeLocked rfl trivial reason claim
  case advanceTick ticks => exact announced_withTick core (satAdd core.tick ticks)
  case compactJournal =>
    rw [compactLocked_snd]
    rfl

/-! ### Publications -/

/-- What a publication with the given comparisons can do: it is refused, it names what is current,
or it installs its input. -/
inductive PublishEffect (core : EngineCore) (checked : Except Status Bool)
    (installed : Announced) : Outcome Unit → Prop
  | refused {status : Status} {core' : EngineCore} (h : core'.announced = core.announced) :
      PublishEffect core checked installed (.error status, core')
  | current (hchecked : checked = .ok false) :
      PublishEffect core checked installed (.ok (), core)
  | installed {outcome : Outcome Unit} (hchecked : checked = .ok true)
      (h : outcome.2.announced = installed) : PublishEffect core checked installed outcome

theorem publish_effect {core : EngineCore} {checked : Except Status Bool} {install : Outcome Unit}
    {installed : Announced}
    (h : checked = .ok true → PublishEffect core checked installed install) :
    PublishEffect core checked installed (core.publish checked install) := by
  unfold publish
  split
  · exact .refused rfl
  · exact .current rfl
  · exact h rfl

section Publications

variable (core : EngineCore)

theorem publishPolicy_effect (policy : AdmissionPolicy) :
    PublishEffect core
      (checkFencedPublication (·.generation) AdmissionPolicy.contentEqual (·.epoch) "policy"
        core.epoch core.policy policy)
      { core.announced with policy := some policy } (core.publishPolicy policy) := by
  unfold publishPolicy
  split
  · exact .refused rfl
  · refine publish_effect fun hchecked => ?_
    rcases hwrite : writeJournal core.journal core.journalReady (.policyConfig policy) with
      ⟨status | ⟨⟩, journal⟩
    · rw [writeRecord_eq _ _ hwrite]
      exact .refused rfl
    · rw [writeRecord_eq _ _ hwrite, Outcome.andThen_ok]
      exact .installed hchecked (announced_enforceAccountingLocked _ _)

theorem publishCapacity_effect (snapshot : CapacitySnapshot) :
    PublishEffect core
      (checkFencedPublication (·.generation) CapacitySnapshot.contentEqual (·.epoch) "capacity"
        core.epoch core.capacity snapshot)
      { core.announced with capacity := some snapshot } (core.publishCapacity snapshot) := by
  unfold publishCapacity
  split
  · exact .refused rfl
  · exact publish_effect fun hchecked =>
      .installed hchecked (announced_enforceAccountingLocked _ _)

theorem publishReservations_effect (snapshot : ReservationSnapshot) :
    PublishEffect core
      (checkPublication (·.generation) ReservationSnapshot.contentEqual "reservation"
        core.epoch core.reservations snapshot)
      { core.announced with reservations := some snapshot }
      (core.publishReservations snapshot) := by
  unfold publishReservations
  split
  · exact .refused rfl
  · exact publish_effect fun hchecked =>
      .installed hchecked (announced_enforceAccountingLocked _ _)

theorem publishPaths_effect (catalog : PathCatalog) :
    PublishEffect core
      (checkPublication (·.pathAuthorityGeneration) PathCatalog.contentEqual "path authority"
        core.epoch core.paths catalog)
      { core.announced with paths := some catalog } (core.publishPaths catalog) := by
  unfold publishPaths
  split
  · exact .refused rfl
  · exact publish_effect fun hchecked => .installed hchecked rfl

theorem publishQosCatalog_effect (catalog : QoSClassCatalog) :
    PublishEffect core
      (checkPublication (·.generation) QoSClassCatalog.contentEqual "qos catalog"
        core.epoch core.qos catalog)
      { core.announced with qos := some catalog } (core.publishQosCatalog catalog) := by
  unfold publishQosCatalog
  split
  · exact .refused rfl
  · exact publish_effect fun hchecked => .installed hchecked rfl

theorem publishPriorityCatalog_effect (catalog : PriorityClassCatalog) :
    PublishEffect core
      (checkPublication (·.generation) PriorityClassCatalog.contentEqual "priority catalog"
        core.epoch core.priorities catalog)
      { core.announced with priorities := some catalog }
      (core.publishPriorityCatalog catalog) := by
  unfold publishPriorityCatalog
  split
  · exact .refused rfl
  · exact publish_effect fun hchecked => .installed hchecked rfl

end Publications

variable {core core' : EngineCore} {checked : Except Status Bool} {installed : Announced}

theorem PublishEffect.announced_eq (h : PublishEffect core checked installed outcome) :
    outcome.2.announced = core.announced ∨
      checked = .ok true ∧ outcome.2.announced = installed := by
  cases h with
  | refused h => exact Or.inl h
  | current _ => exact Or.inl rfl
  | installed hchecked h => exact Or.inr ⟨hchecked, h⟩

/-! ### All operations -/

/-- What an operation can make of the announcements. -/
def Announced.Moves (a a' : Announced) : Operation → Prop
  | .publishPolicy policy => a' = a ∨ a' = { a with policy := some policy }
  | .publishCapacity snapshot => a' = a ∨ a' = { a with capacity := some snapshot }
  | .publishReservations snapshot => a' = a ∨ a' = { a with reservations := some snapshot }
  | .publishPaths catalog => a' = a ∨ a' = { a with paths := some catalog }
  | .publishQosCatalog catalog => a' = a ∨ a' = { a with qos := some catalog }
  | .publishPriorityCatalog catalog => a' = a ∨ a' = { a with priorities := some catalog }
  | .invalidateCapacity => a' = { a with capacity := none }
  | .invalidatePaths => a' = { a with paths := none }
  | .registerSession _ _ | .retireSession _ =>
    a' = { a with sessions := a'.sessions, nextSessionNonce := a'.nextSessionNonce }
  | .beginNewIncarnation incarnation => a.epoch + 1 = 0 ∧ a' = a ∨ a.epoch + 1 ≠ 0 ∧
    a' = { a with epoch := a.epoch + 1, incarnation, sessions := ∅, nextSessionNonce := 1 }
  | .admitRequest _ _ | .revalidate _ _ | .revoke _ _ _ | .advanceTick _ | .compactJournal =>
    a' = a

theorem announced_registerSession (core : EngineCore) (publisher : PublisherId) (boot : BootId) :
    (core.registerSession publisher boot).2.announced = { core.announced with
      sessions := (core.registerSession publisher boot).2.sessions
      nextSessionNonce := (core.registerSession publisher boot).2.nextSessionNonce } := by
  unfold registerSession
  split
  · rfl
  · split
    · rfl
    · split <;> rfl

theorem announced_retireSession (core : EngineCore) (session : SessionNonce) :
    (core.retireSession session).2.announced = { core.announced with
      sessions := (core.retireSession session).2.sessions
      nextSessionNonce := (core.retireSession session).2.nextSessionNonce } := by
  unfold retireSession
  split <;> rfl

theorem moves_perform (core : EngineCore) (operation : Operation) :
    core.announced.Moves (core.perform operation).2.announced operation := by
  have hinternal : operation.announcing = false →
      (core.perform operation).2.announced = core.announced := core.announced_perform
  cases operation <;> simp only [Announced.Moves, perform, answering_snd] at hinternal ⊢
  case publishPolicy policy => exact (core.publishPolicy_effect policy).announced_eq.imp_right (·.2)
  case publishCapacity snapshot =>
    exact (core.publishCapacity_effect snapshot).announced_eq.imp_right (·.2)
  case publishReservations snapshot =>
    exact (core.publishReservations_effect snapshot).announced_eq.imp_right (·.2)
  case publishPaths catalog => exact (core.publishPaths_effect catalog).announced_eq.imp_right (·.2)
  case publishQosCatalog catalog =>
    exact (core.publishQosCatalog_effect catalog).announced_eq.imp_right (·.2)
  case publishPriorityCatalog catalog =>
    exact (core.publishPriorityCatalog_effect catalog).announced_eq.imp_right (·.2)
  case invalidateCapacity => rfl
  case invalidatePaths => rfl
  case registerSession publisher boot => exact core.announced_registerSession publisher boot
  case retireSession session => exact core.announced_retireSession session
  case beginNewIncarnation incarnation =>
    unfold beginNewIncarnation
    split
    · rename_i h
      exact Or.inl ⟨h, rfl⟩
    · rename_i h
      exact Or.inr ⟨h, rfl⟩
  all_goals exact hinternal rfl

theorem capacity_perform (core : EngineCore)
    (hpublish : ∀ snapshot, operation ≠ .publishCapacity snapshot)
    (hinvalidate : operation ≠ .invalidateCapacity) :
    (core.perform operation).2.capacity = core.capacity := by
  have hmoves := core.moves_perform operation
  change (core.perform operation).2.announced.capacity = core.announced.capacity
  cases operation <;> grind [Announced.Moves]

theorem reservations_perform (core : EngineCore)
    (hpublish : ∀ snapshot, operation ≠ .publishReservations snapshot) :
    (core.perform operation).2.reservations = core.reservations := by
  have hmoves := core.moves_perform operation
  change (core.perform operation).2.announced.reservations = core.announced.reservations
  cases operation <;> grind [Announced.Moves]

theorem epoch_perform (core : EngineCore)
    (hbegin : ∀ incarnation, operation ≠ .beginNewIncarnation incarnation) :
    (core.perform operation).2.epoch = core.epoch := by
  have hmoves := core.moves_perform operation
  change (core.perform operation).2.announced.epoch = core.announced.epoch
  cases operation <;> grind [Announced.Moves]

theorem paths_perform (core : EngineCore)
    (hpublish : ∀ catalog, operation ≠ .publishPaths catalog)
    (hinvalidate : operation ≠ .invalidatePaths) :
    (core.perform operation).2.paths = core.paths := by
  have hmoves := core.moves_perform operation
  change (core.perform operation).2.announced.paths = core.announced.paths
  cases operation <;> grind [Announced.Moves]

end EngineCore

end AdmissionFabric
