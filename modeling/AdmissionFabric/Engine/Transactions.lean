import AdmissionFabric.Engine.Effects

/-!
# Operations as transactions

Every operation of the engine is a sequence of a few transactions: a refusal, a grant, a release,
a change of marks on a record, a note in the journal, a compaction, or a change of something that
none of the stores contains. A property that all of them preserve is preserved by every
operation.
-/

namespace AdmissionFabric

/-- Whether an operation replaces the authority that bounds the admitted load. -/
def Operation.bounding : Operation → Bool
  | .publishPolicy _ | .publishCapacity _ | .publishReservations _ | .invalidateCapacity => true
  | _ => false

/-- Whether an operation can release a decision. -/
def Operation.Releases : Operation → AdmissionDecisionId → Prop
  | .publishPolicy _, _ | .publishCapacity _, _ | .publishReservations _, _ => True
  | .revalidate decision _, d | .revoke decision _ _, d => d = decision
  | _, _ => False

namespace EngineCore

variable {core : EngineCore} {operation : Operation}

/-- What the engine stores, beside the authority, the sessions and its counts. -/
structure Stores where
  config : EngineConfig
  ledger : AdmittedLoadLedger
  history : DecisionHistory
  attempts : AttemptRegistry
  decisionCache : Std.ExtTreeMap AdmissionDecisionId AdmissionDecision
  nextDecisionSequence : AdmissionDecisionId
  audit : AuditSequence
  journal : Option Journal
  journalReady : Bool

/-- The books of an engine. -/
def stores (core : EngineCore) : Stores where
  config := core.config
  ledger := core.ledger
  history := core.history
  attempts := core.attempts
  decisionCache := core.decisionCache
  nextDecisionSequence := core.nextDecisionSequence
  audit := core.audit
  journal := core.journal
  journalReady := core.journalReady

-- this and its two companions below are stated for a variable tick: with a computed one the
-- kernel would evaluate the addition
theorem stores_withTick (core : EngineCore) (tick : UInt64) :
    ({ core with toAuthority := core.toAuthority.withTick tick } : EngineCore).stores =
      core.stores := rfl

/-- The part of the authority that bounds the admitted load. -/
structure Bounds where
  capacity : Option CapacitySnapshot
  policy : Option AdmissionPolicy
  reservations : Option ReservationSnapshot

/-- What bounds the load of an engine. -/
def bounds (core : EngineCore) : Bounds where
  capacity := core.capacity
  policy := core.policy
  reservations := core.reservations

theorem bounds_withTick (core : EngineCore) (tick : UInt64) :
    ({ core with toAuthority := core.toAuthority.withTick tick } : EngineCore).bounds =
      core.bounds := rfl

/-- What is announced to an engine: its fencing identity, the inputs and the sessions. -/
structure Announced where
  epoch : FabricEpoch
  incarnation : CoordinatorIncarnation
  policy : Option AdmissionPolicy
  capacity : Option CapacitySnapshot
  reservations : Option ReservationSnapshot
  paths : Option PathCatalog
  qos : Option QoSClassCatalog
  priorities : Option PriorityClassCatalog
  sessions : Std.ExtTreeMap SessionNonce SessionRecord
  nextSessionNonce : SessionNonce

/-- What is announced to an engine. -/
def announced (core : EngineCore) : Announced where
  epoch := core.epoch
  incarnation := core.incarnation
  policy := core.policy
  capacity := core.capacity
  reservations := core.reservations
  paths := core.paths
  qos := core.qos
  priorities := core.priorities
  sessions := core.sessions
  nextSessionNonce := core.nextSessionNonce

theorem announced_withTick (core : EngineCore) (tick : UInt64) :
    ({ core with toAuthority := core.toAuthority.withTick tick } : EngineCore).announced =
      core.announced := rfl

theorem bounds_of_announced {core' : EngineCore} (h : core'.announced = core.announced) :
    core'.bounds = core.bounds := by
  simp only [announced, Announced.mk.injEq] at h
  simp only [bounds, h]

/-- The records that are neither part of a decision nor of a release. -/
inductive IsNote (core : EngineCore) : JournalRecord → Prop
  | boot (record : BootRecord) : IsNote core (.bootEpoch record)
  | policy (policy : AdmissionPolicy) : IsNote core (.policyConfig policy)
  | invalidation {decision : AdmissionDecisionId} {record : DecisionRecord}
      (hfind : core.history.find decision = some record) :
      IsNote core (.revocation (core.revocationOf decision .generationAdvance .invalidated))
  | mark (epoch : FabricEpoch) (frames : Nat) :
      IsNote core (.auditMark { sequence := core.audit, epoch, frames })

/-- Two records that differ in nothing but their marks. -/
def SameDecision (record record' : DecisionRecord) : Prop :=
  record' = { record with
    state := record'.state, reason := record'.reason, ledgerLive := record'.ledgerLive }

/-- A mark says that a grant was released only if its load is gone, and never that it expired. -/
structure Truthful (core : EngineCore) (decision : AdmissionDecisionId)
    (f : DecisionRecord → DecisionRecord) : Prop where
  not_revoked : core.ledger.holds decision = true → ∀ record, (f record).state ≠ .revoked
  not_expired : ∀ record, (f record).state ≠ .expired
  live : ∀ record, (f record).ledgerLive = record.ledgerLive ∨
    core.ledger.holds decision = false ∧ (f record).ledgerLive = false

/-- The amounts of a grant. -/
def amountsOf (grant : Grant) : List (ResourceId × Rate) :=
  grant.targets.map fun resource => (resource, grant.granted)

theorem map_fst_amountsOf (grant : Grant) : (amountsOf grant).map Prod.fst = grant.targets := by
  simp [amountsOf, Function.comp_def]

/-- A property that permitted releases and all marks and notes preserve. -/
structure Housekeeping (may : AdmissionDecisionId → Prop) (P : EngineCore → Prop) : Prop where
  release : ∀ core decision reason explanation, may decision → P core →
    P (core.releaseDecisionLocked decision reason .revoked explanation).2
  mark : ∀ core decision f, (∀ record, SameDecision record (f record)) →
    core.Truthful decision f → P core →
    P { core with history := core.history.modify decision f }
  note : ∀ core record, core.IsNote record → P core → P (core.writeRecord record).2
  clearFlags : ∀ core, P core → P { core with ledger := core.ledger.clearRevalidationFlags }
  steady : ∀ core core', core'.stores = core.stores → core'.announced = core.announced →
    P core → P core'

/-- A property that every transaction preserves, if what is announced stays the same. -/
structure Transactional (P : EngineCore → Prop) : Prop extends
    Housekeeping (fun _ => True) P where
  refusal : ∀ core request claim reason evidence recordAttempt, P core →
    P (core.consumeIdentity.finishRefusal (core.refusal request claim reason evidence) request
      recordAttempt).2
  grant : ∀ core request claim grant, core.verdict request claim = .grant grant → P core →
    P (core.consumeIdentity.finishAdmission (core.admission request claim grant) request
      (amountsOf grant)).2

/-- A property that every transaction and every compaction preserves. -/
structure Preserved (P : EngineCore → Prop) : Prop extends Transactional P where
  compact : ∀ core, P core → P core.compactLocked.2
  tidy : ∀ core core', core'.stores = core.stores → core'.bounds = core.bounds → P core → P core'
  steady core core' hstores hannounced := tidy core core' hstores (bounds_of_announced hannounced)

/-- A property of the stores alone. -/
def OfStores (P : EngineCore → Prop) : Prop :=
  ∀ core core', core'.stores = core.stores → P core → P core'

variable {P : EngineCore → Prop}

namespace Transactional

/-! ### Admission -/

theorem refuse (h : Transactional P) (hP : P core) (request : AdmissionRequest)
    (claim : ClaimContext) (reason : Refusal) (evidence : Option Evidence) (recordAttempt : Bool) :
    P (core.refuse request claim reason evidence recordAttempt).2 := by
  rw [EngineCore.refuse, answer_snd]
  exact h.refusal core request claim reason evidence recordAttempt hP

theorem countReplay (h : Transactional P) (hP : P core) : P core.countReplay :=
  h.steady core core.countReplay rfl rfl hP

theorem admitLocked (h : Transactional P) (hP : P core) (request : AdmissionRequest)
    (claim : ClaimContext) : P (core.admitLocked request claim).2 := by
  unfold EngineCore.admitLocked
  cases hverdict : core.verdict request claim with
  | refuse reason evidence recordAttempt =>
    exact h.refuse hP request claim reason evidence recordAttempt
  | retired reason => exact h.refuse (h.countReplay hP) request claim reason none false
  | replay decision => exact h.countReplay hP
  | grant grant =>
    rw [answer_snd]
    exact h.grant core request claim grant hverdict hP

end Transactional

namespace Housekeeping

variable {decision : AdmissionDecisionId} {may : AdmissionDecisionId → Prop}

/-! ### Release -/

theorem holds_of_unheld {record : DecisionRecord}
    (h : core.revalidationVerdict decision record = .unheld) :
    core.ledger.holds decision = false := by
  unfold revalidationVerdict at h
  split at h
  · cases h
  · split at h
    · rename_i hheld
      simpa using hheld
    · split at h
      · cases h
      · split at h
        · cases h
        · split at h <;> cases h

theorem revalidateLocked (h : Housekeeping may P) (hP : P core) (hmay : may decision)
    (claim : ClaimContext) : P (core.revalidateLocked decision claim).2 := by
  unfold EngineCore.revalidateLocked
  split
  · exact hP
  · rename_i hfind
    split
    · exact hP
    · split
      · exact hP
      · rename_i hverdict
        have hunheld := holds_of_unheld hverdict
        refine h.mark core decision _ (fun record => rfl) ⟨fun hheld => ?_, fun _ => nofun,
          fun _ => Or.inr ⟨hunheld, rfl⟩⟩ hP
        rw [hunheld] at hheld
        cases hheld
      · rw [releaseFor_snd]
        exact h.release core _ _ _ hmay hP
      · exact hP
      · exact hP
      · unfold markInvalidated
        refine Outcome.andThen_induction
          (h.note core _ (.invalidation hfind) hP) fun _ core' _ hP' => ?_
        exact h.mark core' _ _ (fun record => rfl)
          ⟨fun _ _ => nofun, fun _ => nofun, fun _ => Or.inl rfl⟩ hP'

theorem revokeLocked (h : Housekeeping may P) (hP : P core) (hmay : may decision)
    (reason : RevocationReason) (claim : ClaimContext) :
    P (core.revokeLocked decision reason claim).2 := by
  unfold EngineCore.revokeLocked
  split
  · exact hP
  · split
    · exact hP
    · split
      · exact hP
      · rw [releaseFor_snd]
        exact h.release core _ _ _ hmay hP

/-! ### Enforcement -/

theorem enforceRecords (h : Housekeeping may P) (hmay : ∀ d, may d)
    (held : AdmissionDecisionId → List LedgerEntry) (reason : RevocationReason)
    (records : List DecisionRecord) (report : ReconciliationReport) (hP : P core) :
    P (EngineCore.enforceRecords held reason report records core).2 := by
  induction records generalizing report core with
  | nil => exact hP
  | cons record rest ih =>
    refine Outcome.andThen_induction ?_ fun report' core' _ hP' => ih report' hP'
    unfold enforceRecord
    split
    · exact hP
    · split
      · exact hP
      · exact Outcome.andThen_induction (h.release core _ _ _ (hmay _) hP) fun _ _ _ hP' => hP'

theorem enforceAccountingLocked (h : Housekeeping may P) (hmay : ∀ d, may d) (hP : P core)
    (trigger : EnforcementTrigger) : P (core.enforceAccountingLocked trigger).2 := by
  unfold EngineCore.enforceAccountingLocked
  split
  · exact h.steady core _ rfl rfl hP
  · rename_i snapshot _
    refine Outcome.andThen_induction (h.enforceRecords hmay _ _ _ _ hP) fun report core' _ hP' => ?_
    have hfinished := h.steady { core' with ledger := core'.ledger.clearRevalidationFlags }
      (core'.reconciled snapshot report) rfl rfl (h.clearFlags core' hP')
    unfold finishEnforcement
    split
    · exact h.note _ _ (.mark _ _) hfinished
    · exact hfinished

/-! ### Publication -/

private theorem publish_induction (hP : P core) {checked : Except Status Bool}
    {install : Outcome Unit} (hinstall : P install.2) : P (core.publish checked install).2 := by
  unfold publish
  split
  · exact hP
  · exact hP
  · exact hinstall

theorem publishPolicy (h : Housekeeping may P) (hmay : ∀ d, may d) {policy : AdmissionPolicy}
    (hinstall : ∀ core hvalid, P core → P (core.withPolicy policy hvalid)) (hP : P core) :
    P (core.publishPolicy policy).2 := by
  unfold EngineCore.publishPolicy
  split
  · exact hP
  · rename_i hvalid
    refine publish_induction hP (Outcome.andThen_induction (h.note core _ (.policy policy) hP) ?_)
    intro _ core' _ hP'
    exact h.enforceAccountingLocked hmay (hinstall core' hvalid hP') _

theorem publishCapacity (h : Housekeeping may P) (hmay : ∀ d, may d)
    {snapshot : CapacitySnapshot}
    (hinstall : ∀ core hvalid, P core → P (core.withCapacity snapshot hvalid)) (hP : P core) :
    P (core.publishCapacity snapshot).2 := by
  unfold EngineCore.publishCapacity
  split
  · exact hP
  · rename_i hvalid
    exact publish_induction hP (h.enforceAccountingLocked hmay (hinstall core hvalid hP) _)

theorem publishReservations (h : Housekeeping may P) (hmay : ∀ d, may d)
    {snapshot : ReservationSnapshot}
    (hinstall : ∀ core hvalid, P core → P (core.withReservations snapshot hvalid)) (hP : P core) :
    P (core.publishReservations snapshot).2 := by
  unfold EngineCore.publishReservations
  split
  · exact hP
  · rename_i hvalid
    exact publish_induction hP (h.enforceAccountingLocked hmay (hinstall core hvalid hP) _)

theorem publishPaths {catalog : PathCatalog}
    (hinstall : ∀ core hvalid, P core → P (core.withPaths catalog hvalid)) (hP : P core) :
    P (core.publishPaths catalog).2 := by
  unfold EngineCore.publishPaths
  split
  · exact hP
  · rename_i hvalid
    exact publish_induction hP (hinstall core hvalid hP)

theorem publishQosCatalog {catalog : QoSClassCatalog}
    (hinstall : ∀ core hvalid, P core → P (core.withQos catalog hvalid)) (hP : P core) :
    P (core.publishQosCatalog catalog).2 := by
  unfold EngineCore.publishQosCatalog
  split
  · exact hP
  · rename_i hvalid
    exact publish_induction hP (hinstall core hvalid hP)

theorem publishPriorityCatalog {catalog : PriorityClassCatalog}
    (hinstall : ∀ core hvalid, P core → P (core.withPriorities catalog hvalid)) (hP : P core) :
    P (core.publishPriorityCatalog catalog).2 := by
  unfold EngineCore.publishPriorityCatalog
  split
  · exact hP
  · rename_i hvalid
    exact publish_induction hP (hinstall core hvalid hP)

/-! ### Sessions -/

theorem registerSession (hP : P core)
    (htidy : ∀ sessions nextSessionNonce, P { core with sessions, nextSessionNonce })
    (publisher : PublisherId) (boot : BootId) : P (core.registerSession publisher boot).2 := by
  unfold EngineCore.registerSession
  split
  · exact hP
  · split
    · exact hP
    · split
      · exact hP
      · exact htidy _ _

theorem retireSession (hP : P core)
    (htidy : ∀ sessions nextSessionNonce, P { core with sessions, nextSessionNonce })
    (session : SessionNonce) : P (core.retireSession session).2 := by
  unfold EngineCore.retireSession
  split
  · exact htidy _ _
  · exact hP

theorem beginNewIncarnation (h : Housekeeping may P) (hP : P core)
    (htidy : ∀ core', core'.stores = core.stores → core'.bounds = core.bounds → P core')
    (incarnation : CoordinatorIncarnation) : P (core.beginNewIncarnation incarnation).2 := by
  unfold EngineCore.beginNewIncarnation
  split
  · exact hP
  · exact h.note _ _ (.boot _) (htidy _ rfl rfl)

/-! ### Operations of one incarnation -/

/-- What housekeeping preserves holds after every operation that keeps the incarnation and
releases permitted decisions only, if admissions and compactions on request preserve it. -/
theorem perform_of_incarnation (h : Housekeeping may P)
    (hfenced : ∀ core core', core'.stores = core.stores → core'.epoch = core.epoch →
      core'.incarnation = core.incarnation → P core → P core') (hP : P core)
    (hmay : ∀ d, operation.Releases d → may d)
    (hrequest : ∀ request claim, operation = .admitRequest request claim →
      P (core.admitLocked request claim).2)
    (hcompact : operation = .compactJournal → P core.compactLocked.2)
    (hop : ∀ incarnation, operation ≠ .beginNewIncarnation incarnation) :
    P (core.perform operation).2 := by
  cases operation <;> simp only [EngineCore.perform, answering_snd]
  case publishPolicy policy =>
    exact h.publishPolicy (fun d => hmay d trivial)
      (fun core hvalid => hfenced core (core.withPolicy policy hvalid) rfl rfl rfl) hP
  case publishCapacity snapshot =>
    exact h.publishCapacity (fun d => hmay d trivial)
      (fun core hvalid => hfenced core (core.withCapacity snapshot hvalid) rfl rfl rfl) hP
  case publishReservations snapshot =>
    exact h.publishReservations (fun d => hmay d trivial)
      (fun core hvalid => hfenced core (core.withReservations snapshot hvalid) rfl rfl rfl) hP
  case publishPaths catalog =>
    exact Housekeeping.publishPaths
      (fun core hvalid => hfenced core (core.withPaths catalog hvalid) rfl rfl rfl) hP
  case publishQosCatalog catalog =>
    exact Housekeeping.publishQosCatalog
      (fun core hvalid => hfenced core (core.withQos catalog hvalid) rfl rfl rfl) hP
  case publishPriorityCatalog catalog =>
    exact Housekeeping.publishPriorityCatalog
      (fun core hvalid => hfenced core (core.withPriorities catalog hvalid) rfl rfl rfl) hP
  case invalidateCapacity => exact hfenced core core.invalidateCapacity.2 rfl rfl rfl hP
  case invalidatePaths => exact hfenced core core.invalidatePaths.2 rfl rfl rfl hP
  case admitRequest request claim => exact hrequest request claim rfl
  case revalidate decision claim => exact h.revalidateLocked hP (hmay decision rfl) claim
  case revoke decision reason claim => exact h.revokeLocked hP (hmay decision rfl) reason claim
  case registerSession publisher boot =>
    exact Housekeeping.registerSession hP (fun sessions nextSessionNonce =>
      hfenced core { core with sessions, nextSessionNonce } rfl rfl rfl hP) publisher boot
  case retireSession session =>
    exact Housekeeping.retireSession hP (fun sessions nextSessionNonce =>
      hfenced core { core with sessions, nextSessionNonce } rfl rfl rfl hP) session
  case beginNewIncarnation incarnation => exact absurd rfl (hop incarnation)
  case advanceTick ticks =>
    exact h.steady core _ (stores_withTick core (satAdd core.tick ticks))
      (announced_withTick core (satAdd core.tick ticks)) hP
  case compactJournal => exact hcompact rfl

theorem perform (h : Housekeeping may P) (hstores : OfStores P) (hP : P core)
    (hmay : ∀ d, operation.Releases d → may d)
    (hrequest : ∀ request claim, operation = .admitRequest request claim →
      P (core.admitLocked request claim).2)
    (hcompact : operation = .compactJournal → P core.compactLocked.2) :
    P (core.perform operation).2 := by
  by_cases hop : ∃ incarnation, operation = .beginNewIncarnation incarnation
  · obtain ⟨incarnation, rfl⟩ := hop
    exact h.beginNewIncarnation hP (fun core' hsame _ => hstores core core' hsame hP) incarnation
  · exact h.perform_of_incarnation (fun core core' hsame _ _ => hstores core core' hsame) hP hmay
      hrequest hcompact fun incarnation heq => hop ⟨incarnation, heq⟩

end Housekeeping

namespace Transactional

/-- Every operation preserves what every transaction preserves, if it is a property of the stores
and a compaction on request preserves it as well. -/
theorem perform (h : Transactional P) (hstores : OfStores P) (hP : P core)
    (hcompact : operation = .compactJournal → P core.compactLocked.2) :
    P (core.perform operation).2 :=
  h.toHousekeeping.perform hstores hP (fun _ _ => trivial)
    (fun request claim _ => h.admitLocked hP request claim) hcompact

end Transactional

namespace Preserved

/-- Every operation that leaves the bounds of the load alone preserves what every transaction
preserves. -/
theorem perform_of_not_bounding (h : Preserved P) (hP : P core)
    (hop : operation.bounding = false) : P (core.perform operation).2 := by
  cases operation <;> simp only [EngineCore.perform, answering_snd]
  case publishPaths catalog =>
    exact Housekeeping.publishPaths
      (fun core hvalid => h.tidy core (core.withPaths catalog hvalid) rfl rfl) hP
  case publishQosCatalog catalog =>
    exact Housekeeping.publishQosCatalog
      (fun core hvalid => h.tidy core (core.withQos catalog hvalid) rfl rfl) hP
  case publishPriorityCatalog catalog =>
    exact Housekeeping.publishPriorityCatalog
      (fun core hvalid => h.tidy core (core.withPriorities catalog hvalid) rfl rfl) hP
  case invalidatePaths => exact h.tidy core core.invalidatePaths.2 rfl rfl hP
  case admitRequest request claim => exact h.admitLocked hP request claim
  case revalidate decision claim => exact h.revalidateLocked hP trivial claim
  case revoke decision reason claim => exact h.revokeLocked hP trivial reason claim
  case registerSession publisher boot =>
    exact Housekeeping.registerSession hP (fun sessions nextSessionNonce =>
      h.tidy core { core with sessions, nextSessionNonce } rfl rfl hP) publisher boot
  case retireSession session =>
    exact Housekeeping.retireSession hP (fun sessions nextSessionNonce =>
      h.tidy core { core with sessions, nextSessionNonce } rfl rfl hP) session
  case beginNewIncarnation incarnation =>
    exact h.beginNewIncarnation hP (fun core' hstores hbounds =>
      h.tidy core core' hstores hbounds hP) incarnation
  case advanceTick ticks =>
    exact h.tidy core _ (stores_withTick core (satAdd core.tick ticks))
      (bounds_withTick core (satAdd core.tick ticks)) hP
  case compactJournal => exact h.compact core hP
  all_goals simp [Operation.bounding] at hop

/-- Every operation preserves what every transaction and every compaction preserves, if it is a
property of the stores. -/
theorem perform (h : Preserved P) (hstores : OfStores P) (hP : P core) (operation : Operation) :
    P (core.perform operation).2 :=
  h.toTransactional.perform hstores hP fun _ => h.compact core hP

end Preserved

end EngineCore

end AdmissionFabric
