import AdmissionFabric.Engine.Announced
import AdmissionFabric.Engine.EnforceSpec
import AdmissionFabric.Engine.RecoverySpec
import AdmissionFabric.Engine.SmallFabric

/-!
# Accounting closure

The load that the engine has admitted on a resource of known capacity, together with the
obligations and the headroom on it, stays within its usable capacity; where obligations and
headroom alone exceed the capacity, nothing is admitted. No load is held on a resource whose
capacity is not known.

Admissions and releases keep the closure. A publication that replaces the policy, the capacity or
the reservations keeps it if its enforcement pass ends: then every grant that no longer fits has
been released. A pass that stops at a failed release leaves the new authority in place and the
closure broken, and republishing the same input is answered with success without another pass.
-/

namespace AdmissionFabric

open TransitionSystem AdmittedLoadLedger Authority

namespace EngineCore

variable {d : AdmissionDecisionId} {snapshot : CapacitySnapshot} {ledger : AdmittedLoadLedger}
    {core core' : EngineCore}

/-- The closure of the admitted load under the current capacity snapshot. -/
structure Closed (core : EngineCore) : Prop where
  bounded : ∀ snapshot ∈ core.capacity, ∀ entry ∈ snapshot.resources, entry.evidence = .known →
    (core.ledger.admitted entry.resource).toNat + core.obligationLoadOn entry.resource +
        (core.headroomFor entry).toNat ≤ entry.usable.toNat ∨
      entry.usable.toNat < core.obligationLoadOn entry.resource +
        (core.headroomFor entry).toNat ∧ core.ledger.admitted entry.resource = 0
  covered : ∀ snapshot ∈ core.capacity, ∀ e ∈ core.ledger.entries,
    ∃ entry ∈ snapshot.resources, entry.resource = e.resource ∧ entry.evidence = .known

/-! ### Closure from fitting entries -/

theorem fits_congr (hbounds : core'.bounds = core.bounds) (ledger : AdmittedLoadLedger)
    (e : LedgerEntry) : core'.Fits ledger e ↔ core.Fits ledger e := by
  have hcapacity : core'.capacity = core.capacity := congrArg Bounds.capacity hbounds
  have hpolicy : core'.policy = core.policy := congrArg Bounds.policy hbounds
  have hreservations : core'.reservations = core.reservations :=
    congrArg Bounds.reservations hbounds
  have htotals : core'.obligationTotals = core.obligationTotals := by
    rw [core'.totalsIndexed, core.totalsIndexed, hreservations]
  simp only [Authority.Fits, knownCapacity, findCapacity, allowance,
    headroomFor, obligationsFor, hcapacity, hpolicy, htotals]

theorem AllFit.congr (h : core.AllFit) (hledger : core'.ledger = core.ledger)
    (hbounds : core'.bounds = core.bounds) : core'.AllFit := by
  intro e he
  rw [hledger] at he ⊢
  exact (fits_congr hbounds _ e).mpr (h e he)

theorem AllFit.lighter (h : core.AllFit) (hlighter : core'.ledger.Lighter core.ledger)
    (hbounds : core'.bounds = core.bounds) : core'.AllFit := by
  intro e he
  exact (fits_congr hbounds _ e).mpr
    ((h e (hlighter.mem_heldEntries he)).mono (hlighter.admitted_le _))

theorem knownCapacity_eq_some {entry : ResourceCapacity}
    (hsnapshot : core.capacity = some snapshot) (hentry : entry ∈ snapshot.resources)
    (hknown : entry.evidence = .known) : core.knownCapacity entry.resource = some entry := by
  rw [knownCapacity,
    findCapacity_eq_some_iff.mpr ⟨snapshot, hsnapshot, hentry, rfl⟩]
  simp [hknown]

theorem closed_of_allFit (hwf : core.ledger.WellFormed)
    (h : core.capacity ≠ none → core.AllFit) : core.Closed := by
  constructor
  · intro snapshot hsnapshot entry hentry hknown
    have hfit := h (by simp [Option.mem_def.mp hsnapshot])
    have hfound := knownCapacity_eq_some hsnapshot hentry hknown
    have hadmitted := hwf.admitted_eq entry.resource
    by_cases hload : ∃ e ∈ core.ledger.heldEntries, e.resource = entry.resource
    · obtain ⟨e, he, hresource⟩ := hload
      obtain ⟨cap, hcap, hle⟩ := hfit e he
      rw [hresource] at hcap hle
      obtain rfl := Option.some.inj (hfound.symm.trans hcap)
      rw [UInt64.le_iff_toNat_le, toNat_allowance] at hle
      rw [← UInt64.toNat_inj, UInt64.toNat_zero]
      omega
    · have hzero : loadOn core.ledger.heldEntries entry.resource = 0 :=
        loadOn_eq_zero fun e he heq => hload ⟨e, he, heq⟩
      rw [← UInt64.toNat_inj, UInt64.toNat_zero]
      omega
  · intro snapshot hsnapshot e he
    obtain ⟨cap, hcap, -⟩ := h (by simp [Option.mem_def.mp hsnapshot]) e
      (mem_entries.mp he)
    obtain ⟨hfound, hknown⟩ := Option.filter_eq_some_iff.mp hcap
    obtain ⟨snapshot', hsnapshot', hmem, hresource⟩ :=
      findCapacity_eq_some_iff.mp hfound
    obtain rfl := Option.some.inj (hsnapshot'.symm.trans hsnapshot)
    exact ⟨cap, hmem, hresource, by simpa using hknown⟩

/-! ### Transactions -/

/-- Consistent books whose entries fit, as long as there is a capacity snapshot. -/
def Balanced (core : EngineCore) : Prop :=
  core.Consistent ∧ (core.capacity ≠ none → core.AllFit)

theorem Balanced.congr (h : core.Balanced) (hconsistent : core'.Consistent)
    (hledger : core'.ledger = core.ledger) (hbounds : core'.bounds = core.bounds) :
    core'.Balanced := by
  have hcapacity : core'.capacity = core.capacity := congrArg Bounds.capacity hbounds
  exact ⟨hconsistent, fun hc => (h.2 (hcapacity ▸ hc)).congr hledger hbounds⟩

theorem Balanced.lighter (h : core.Balanced) (hconsistent : core'.Consistent)
    (hlighter : core'.ledger.Lighter core.ledger) (hbounds : core'.bounds = core.bounds) :
    core'.Balanced := by
  have hcapacity : core'.capacity = core.capacity := congrArg Bounds.capacity hbounds
  exact ⟨hconsistent, fun hc => (h.2 (hcapacity ▸ hc)).lighter hlighter hbounds⟩

theorem lighter_of_eq {ledger' : AdmittedLoadLedger}
    (hby : ledger'.byDecision = ledger.byDecision)
    (hadmitted : ∀ r, ledger'.admitted r = ledger.admitted r) : ledger'.Lighter ledger :=
  ⟨fun d es hd => by rw [← hby]; exact hd, fun r => by rw [hadmitted r]; exact UInt64.le_refl _⟩

theorem AllFit.admitted_le_allowance (h : core.AllFit) (hwf : core.ledger.WellFormed)
    {r : ResourceId} {cap : ResourceCapacity} (hcap : core.knownCapacity r = some cap) :
    core.ledger.admitted r ≤ core.allowance cap r := by
  by_cases hload : ∃ e ∈ core.ledger.heldEntries, e.resource = r
  · obtain ⟨e, he, rfl⟩ := hload
    obtain ⟨cap', hcap', hle⟩ := h e he
    obtain rfl := Option.some.inj (hcap.symm.trans hcap')
    exact hle
  · have hzero : (core.ledger.admitted r).toNat = 0 := by
      rw [hwf.admitted_eq]
      exact loadOn_eq_zero fun e he heq => hload ⟨e, he, heq⟩
    rw [UInt64.le_iff_toNat_le, hzero]
    exact Nat.zero_le _

theorem AllFit.withReservation (h : core.AllFit) (hwf : core.ledger.WellFormed)
    {es : List LedgerEntry} {pathTotals : Std.ExtTreeMap PathId Rate}
    (hd : core.ledger.byDecision[d]? = none) (hnodup : (es.map (·.resource)).Nodup)
    (hroom : ∀ e ∈ es, (core.ledger.admitted e.resource).toNat + e.amount.toNat < 2 ^ 64)
    (hfree : ∀ e ∈ es, ∃ free ∈ core.freeOn core.ledger e.resource, e.amount ≤ free) :
    ({ core with ledger := core.ledger.withReservation d es pathTotals } : EngineCore).AllFit := by
  intro e he
  have hadmitted : ((core.ledger.withReservation d es pathTotals).admitted e.resource).toNat =
      (core.ledger.admitted e.resource).toNat + loadOn es e.resource :=
    toNat_admitted_withReservation hnodup hroom e.resource
  by_cases hnew : ∃ e' ∈ es, e'.resource = e.resource
  · obtain ⟨e', he', hresource⟩ := hnew
    obtain ⟨free, hfree', hle⟩ := hfree e' he'
    obtain ⟨cap, hcap, rfl⟩ := Option.map_eq_some_iff.mp hfree'
    have hold := h.admitted_le_allowance hwf hcap
    refine ⟨cap, hresource ▸ hcap, ?_⟩
    rw [← hresource] at hadmitted ⊢
    rw [loadOn_eq_of_nodup hnodup he'] at hadmitted
    rw [UInt64.le_iff_toNat_le] at hle hold ⊢
    rw [toNat_satSub] at hle
    change ((core.ledger.withReservation d es pathTotals).admitted e'.resource).toNat ≤
      (core.allowance cap e'.resource).toNat
    omega
  · have hzero : loadOn es e.resource = 0 :=
      loadOn_eq_zero fun e' he' heq => hnew ⟨e', he', heq⟩
    have hheld : e ∈ core.ledger.heldEntries := by
      rcases List.mem_append.mp ((heldEntries_withReservation_perm hd es
        pathTotals).mem_iff.mp he) with hmem | hmem
      · exact absurd ⟨e, hmem, rfl⟩ hnew
      · exact hmem
    refine (h e hheld).mono ?_
    rw [UInt64.le_iff_toNat_le, hadmitted, hzero]
    exact le_rfl

theorem AllFit.reserve (h : core.AllFit) (hwf : core.ledger.WellFormed) {demand : DemandId}
    {epoch : FabricEpoch} {generation : Generation} {path : PathId}
    {amounts : List (ResourceId × Rate)} (hnodup : (amounts.map Prod.fst).Nodup)
    (hfree : ∀ a ∈ amounts, ∃ free ∈ core.freeOn core.ledger a.1, a.2 ≤ free)
    (hreserve : core.ledger.reserve d demand epoch generation path amounts = (.ok (), ledger)) :
    ({ core with ledger } : EngineCore).AllFit := by
  obtain ⟨hcheck, pathTotals, -, rfl⟩ := reserve_eq_ok_iff.mp hreserve
  obtain ⟨-, hd, -, -, hroom⟩ := checkReserve_eq_ok_iff.mp hcheck
  refine h.withReservation hwf hd ?_ ?_ ?_
  · simpa [newEntries, Function.comp_def] using hnodup
  · intro e he
    obtain ⟨a, ha, rfl⟩ := List.mem_map.mp he
    exact (hroom a ha).2
  · intro e he
    obtain ⟨a, ha, rfl⟩ := List.mem_map.mp he
    exact hfree a ha

theorem Balanced.grant (h : core.Balanced) {request : AdmissionRequest} {claim : ClaimContext}
    {grant : Grant} (hverdict : core.verdict request claim = .grant grant) :
    (core.consumeIdentity.finishAdmission (core.admission request claim grant) request
      (amountsOf grant)).2.Balanced := by
  have hconsistent := h.1.grant hverdict
  have heval := (verdict_eq_grant hverdict).2.2.2
  have hnodup := nodup_amountsOf heval
  generalize hcall : core.consumeIdentity.finishAdmission _ _ _ = outcome at hconsistent ⊢
  cases finishAdmission_effect hcall with
  | unprepared _ => exact h.congr hconsistent rfl rfl
  | unreserved _ hreserve =>
    obtain ⟨hby, -, -, hadmitted⟩ := reserve_of_error hnodup hreserve
    exact h.lighter hconsistent (lighter_of_eq hby hadmitted) rfl
  | uncommitted _ hreserve _ =>
    obtain ⟨es, released, hrelease, hby, -, hadmitted⟩ :=
      release_of_reserve hnodup hreserve
    simp only [hrelease] at hconsistent ⊢
    exact h.lighter hconsistent (lighter_of_eq hby hadmitted) rfl
  | committed _ hreserve _ =>
    rw [compactIfNeededLocked_snd] at hconsistent ⊢
    have hfree : ∀ a ∈ amountsOf grant, ∃ free ∈ core.freeOn core.ledger a.1, a.2 ≤ free := by
      intro a ha
      obtain ⟨r, hr, rfl⟩ := List.mem_map.mp ha
      exact granted_le_free heval hr
    refine ⟨hconsistent, fun hcapacity => ?_⟩
    exact ((h.2 hcapacity).reserve h.1.wellFormed hnodup hfree hreserve).congr rfl rfl

theorem Balanced.release (h : core.Balanced) (d : AdmissionDecisionId)
    (reason : RevocationReason) (state : RevalidationState) (explanation : Explanation) :
    (core.releaseDecisionLocked d reason state explanation).2.Balanced := by
  have hconsistent := h.1.release d reason state explanation
  have hlighter : ∀ {es : List LedgerEntry} {ledger : AdmittedLoadLedger},
      core.ledger.release d = .ok (es, ledger) → ledger.Lighter core.ledger := by
    intro es ledger hrelease
    obtain ⟨-, hd, -, rfl⟩ := release_eq_ok_iff.mp hrelease
    exact AdmittedLoadLedger.Lighter.without h.1.wellFormed hd
  generalize hcall : core.releaseDecisionLocked d reason state explanation = outcome
    at hconsistent ⊢
  cases releaseDecisionLocked_effect hcall with
  | unheld _ => exact h
  | unwritten _ _ | stuck _ _ _ => exact h.congr hconsistent rfl rfl
  | unmarked _ _ hrelease _ | released _ _ hrelease _ =>
    exact h.lighter hconsistent (hlighter hrelease) rfl

theorem Balanced.refusal (h : core.Balanced) (request : AdmissionRequest) (claim : ClaimContext)
    (reason : Refusal) (evidence : Option Evidence) (recordAttempt : Bool) :
    (core.consumeIdentity.finishRefusal (core.refusal request claim reason evidence) request
      recordAttempt).2.Balanced := by
  have hconsistent := h.1.refusal request claim reason evidence recordAttempt
  generalize hcall : core.consumeIdentity.finishRefusal _ _ _ = outcome at hconsistent ⊢
  cases finishRefusal_effect hcall with
  | unwritten _ | settled _ => exact h.congr hconsistent rfl rfl

theorem Balanced.preserved : Preserved Balanced where
  refusal _ request claim reason evidence recordAttempt h :=
    h.refusal request claim reason evidence recordAttempt
  grant _ _ _ _ hverdict h := h.grant hverdict
  release _ d reason explanation _ h := h.release d reason .revoked explanation
  mark core d f hf htruthful h :=
    h.congr (Consistent.preserved.mark core d f hf htruthful h.1) rfl rfl
  note core record hnote h := h.congr (Consistent.preserved.note core record hnote h.1) rfl rfl
  compact core h := by
    have hconsistent := Consistent.preserved.compact core h.1
    rw [compactLocked_snd] at hconsistent ⊢
    exact h.congr hconsistent rfl rfl
  clearFlags core h := ⟨Consistent.preserved.clearFlags core h.1, fun hc => (h.2 hc).clearFlags⟩
  tidy core core' hstores hbounds h :=
    h.congr (h.1.of_stores hstores) (congrArg Stores.ledger hstores) hbounds

/-! ### Publications -/

/-- The engine with the bounds that a publication installs, if it installs any. -/
def installed (core : EngineCore) : Operation → Option EngineCore
  | .publishPolicy policy =>
    if h : policy.validate = .ok () ∧ checkFencedPublication (·.generation)
        AdmissionPolicy.contentEqual (·.epoch) "policy" core.epoch core.policy policy = .ok true
    then some (core.withPolicy policy h.1) else none
  | .publishCapacity snapshot =>
    if h : snapshot.validate = .ok () ∧ checkFencedPublication (·.generation)
        CapacitySnapshot.contentEqual (·.epoch) "capacity" core.epoch core.capacity snapshot =
          .ok true
    then some (core.withCapacity snapshot h.1) else none
  | .publishReservations snapshot =>
    if h : snapshot.validate = .ok () ∧ checkPublication (·.generation)
        ReservationSnapshot.contentEqual "reservation" core.epoch core.reservations snapshot =
          .ok true
    then some (core.withReservations snapshot h.1) else none
  | _ => none

/-- The trigger of the pass that a publication starts. -/
def triggerOf : Operation → EnforcementTrigger
  | .publishPolicy _ => .policyPublication
  | .publishCapacity _ => .capacityPublication
  | .publishReservations _ => .reservationPublication
  | _ => .none

/-- An operation that installs new bounds finds every grant within them or releasable. -/
def Enforceable (core : EngineCore) (operation : Operation) : Prop :=
  ∀ next ∈ core.installed operation, next.capacity ≠ none →
    ∀ d ∈ next.ledger.byDecision.keys,
      next.checkFits (next.ledger.entriesOf d) = .ok () ∨
        next.Releasable d (triggerOf operation).reason

theorem balanced_enforceAccountingLocked (h : core.Consistent) {trigger : EnforcementTrigger}
    (hall : core.capacity ≠ none → ∀ d ∈ core.ledger.byDecision.keys,
      core.checkFits (core.ledger.entriesOf d) = .ok () ∨ core.Releasable d trigger.reason) :
    (core.enforceAccountingLocked trigger).2.Balanced := by
  refine ⟨Consistent.preserved.enforceAccountingLocked (fun _ => trivial) h trigger,
    fun hcapacity => ?_⟩
  have hbounds := bounds_of_announced (core.announced_enforceAccountingLocked trigger)
  rw [show (core.enforceAccountingLocked trigger).2.capacity = core.capacity from
    congrArg Bounds.capacity hbounds] at hcapacity
  refine allFit_enforceAccountingLocked h hcapacity fun d hd => hall hcapacity d ?_
  rw [Std.ExtTreeMap.mem_keys, Std.ExtTreeMap.mem_iff_isSome_getElem?]
  exact hd

theorem publish_cases {checked : Except Status Bool} {install : Outcome Unit}
    (h : core.Balanced) (hinstall : checked = .ok true → install.2.Balanced) :
    (core.publish checked install).2.Balanced := by
  unfold publish
  split
  · exact h
  · exact h
  · exact hinstall rfl

theorem Balanced.publishPolicy (h : core.Balanced) {policy : AdmissionPolicy}
    (hguard : core.Enforceable (.publishPolicy policy)) :
    (core.publishPolicy policy).2.Balanced := by
  unfold EngineCore.publishPolicy
  split
  · exact h
  · rename_i hvalid
    refine publish_cases h fun hchecked => ?_
    have hinstalled : core.installed (.publishPolicy policy) =
        some (core.withPolicy policy hvalid) := dif_pos ⟨hvalid, hchecked⟩
    rcases hwrite : writeJournal core.journal core.journalReady (.policyConfig policy) with
      ⟨status | ⟨⟩, journal⟩
    · rw [writeRecord_eq _ _ hwrite]
      exact h.congr (h.1.mono rfl rfl le_rfl le_rfl) rfl rfl
    · rw [writeRecord_eq _ _ hwrite, Outcome.andThen_ok]
      have hnext : (({ core with journal } : EngineCore).withPolicy policy hvalid).Consistent :=
        h.1.mono rfl rfl le_rfl le_rfl
      refine balanced_enforceAccountingLocked hnext fun hcapacity d hd => ?_
      rcases hguard _ hinstalled hcapacity d hd with hfits | hreleasable
      · exact Or.inl hfits
      · exact Or.inr ⟨hreleasable.1, hreleasable.2.of_write hwrite⟩

theorem Balanced.publishCapacity (h : core.Balanced)
    (hguard : core.Enforceable (.publishCapacity snapshot)) :
    (core.publishCapacity snapshot).2.Balanced := by
  unfold EngineCore.publishCapacity
  split
  · exact h
  · rename_i hvalid
    refine publish_cases h fun hchecked => ?_
    have hinstalled : core.installed (.publishCapacity snapshot) =
        some (core.withCapacity snapshot hvalid) := dif_pos ⟨hvalid, hchecked⟩
    have hnext : (core.withCapacity snapshot hvalid).Consistent := h.1.of_stores rfl
    exact balanced_enforceAccountingLocked hnext (hguard _ hinstalled)

theorem Balanced.publishReservations (h : core.Balanced) {snapshot : ReservationSnapshot}
    (hguard : core.Enforceable (.publishReservations snapshot)) :
    (core.publishReservations snapshot).2.Balanced := by
  unfold EngineCore.publishReservations
  split
  · exact h
  · rename_i hvalid
    refine publish_cases h fun hchecked => ?_
    have hinstalled : core.installed (.publishReservations snapshot) =
        some (core.withReservations snapshot hvalid) := dif_pos ⟨hvalid, hchecked⟩
    have hnext : (core.withReservations snapshot hvalid).Consistent := h.1.of_stores rfl
    exact balanced_enforceAccountingLocked hnext (hguard _ hinstalled)

theorem Balanced.perform (h : core.Balanced) {operation : Operation}
    (hguard : core.Enforceable operation) : (core.perform operation).2.Balanced := by
  cases hop : operation.bounding with
  | false => exact Balanced.preserved.perform_of_not_bounding h hop
  | true =>
    cases operation <;> simp only [Operation.bounding, Bool.false_eq_true] at hop
    all_goals simp only [EngineCore.perform, answering_snd]
    case publishPolicy policy => exact h.publishPolicy hguard
    case publishCapacity snapshot => exact h.publishCapacity hguard
    case publishReservations snapshot => exact h.publishReservations hguard
    case invalidateCapacity =>
      exact ⟨h.1.mono rfl rfl le_rfl le_rfl,
        fun hcapacity => absurd rfl hcapacity⟩

/-! ### Runs -/

theorem Starting.balanced (h : core.Starting) : core.Balanced := by
  rcases h with ⟨config, rfl⟩ | ⟨config, options, disk, rfl⟩
  · exact ⟨Consistent.fresh config, fun hcapacity => absurd rfl hcapacity⟩
  · obtain ⟨hconsistent, hnone, -⟩ := Consistent.boot_new config options disk
    exact ⟨hconsistent, fun hcapacity => absurd hnone hcapacity⟩

/-- Whether a call is enforceable, given what its writes do. -/
def EnforceableCall (core : EngineCore) (call : Call) : Prop :=
  (core.onDisk call.disk).Enforceable call.operation

theorem Balanced.after (h : core.Balanced) {call : Call} (hguard : core.EnforceableCall call) :
    (core.after call).Balanced :=
  (h.congr (h.1.mono rfl rfl le_rfl le_rfl) rfl rfl :
    (core.onDisk call.disk).Balanced).perform hguard

instance (core : EngineCore) (call : Call) : Decidable (core.EnforceableCall call) := by
  unfold EnforceableCall Enforceable Releasable JournalTakes
  infer_instance

/-- In every run of a fresh engine whose publications are enforceable, the accounting is closed in
every state. -/
theorem closed_of_reachable
    (h : Reachable Starting EngineCore.after EnforceableCall core) : core.Closed := by
  have hbalanced : core.Balanced := h.invariant (fun _ hstart => hstart.balanced)
    fun _ _ hcore hguard => hcore.after hguard
  exact closed_of_allFit hbalanced.1.wellFormed hbalanced.2

section Examples

open SmallFabric

/-- A grant of the whole of one resource, which the next snapshot cuts down to ten. -/
def reducedRun : List Operation :=
  announce [known 1 1 50] ++ [.admitRequest (request 1 ⟨50, 50, 50⟩ [1]) {},
    .publishCapacity (capacity 2 [known 1 2 10])]

/-- A run whose last publication has to release a grant. -/
theorem closed_reducedRun : ((EngineCore.fresh {}).performAll reducedRun).Closed := by
  have hallowed : Allowed EngineCore.after EnforceableCall (fresh {})
      (reducedRun.map fun operation => { operation }) := by decide +kernel
  have hstart : Reachable Starting EngineCore.after EnforceableCall (fresh {}) :=
    .init (Or.inl ⟨{}, rfl⟩)
  exact closed_of_reachable (hstart.run hallowed)

/-- Resource 1 loses its evidence and resource 2 is cut down to ten. -/
def degraded : CapacitySnapshot := capacity 2 [{ resource := 1, generation := 2 }, known 2 2 10]

/-- Two grants of zero behind a grant of fifty; the release of the second one fails. -/
def stuckRun : List Operation :=
  announce [known 1 1 0, known 2 1 50] ++
    [.admitRequest (request 1 ⟨50, 50, 50⟩ [2]) {}, .admitRequest (request 2 ⟨0, 5, 5⟩ [1]) {},
      .admitRequest (request 3 ⟨0, 5, 5⟩ [1]) {}, .publishCapacity degraded]

/-- The same snapshot is then accepted again without a pass, with fifty admitted on a resource
of ten. -/
theorem not_closed_republished :
    (((EngineCore.fresh {}).performAll stuckRun).publishCapacity degraded).1 = .ok () ∧
      ¬ (((EngineCore.fresh {}).performAll stuckRun).publishCapacity degraded).2.Closed := by
  refine ⟨by decide +kernel, fun h => ?_⟩
  have hcapacity : (((fresh {}).performAll stuckRun).publishCapacity
      degraded).2.capacity = some degraded := by decide +kernel
  have hadmitted : (((fresh {}).performAll stuckRun).publishCapacity
      degraded).2.ledger.admitted 2 = 50 := by decide +kernel
  rcases h.bounded degraded hcapacity (known 2 2 10) (by decide) rfl with hle | ⟨-, hzero⟩
  · change (EngineCore.ledger _ |>.admitted 2).toNat + _ + _ ≤ 10 at hle
    rw [hadmitted] at hle
    have hfifty : (50 : Rate).toNat = 50 := rfl
    omega
  · change (EngineCore.ledger _).admitted 2 = 0 at hzero
    rw [hadmitted] at hzero
    exact absurd hzero (by decide)

end Examples

end EngineCore

end AdmissionFabric
