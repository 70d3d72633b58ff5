import AdmissionFabric.Engine.Lifetime
import AdmissionFabric.Guarantees.CurrentAuthority

/-!
# No authority crosses a fencing epoch

An input is stamped with the epoch under which it was observed, and an admission is meant to rest
on inputs of the epoch it is made in. Capacity snapshots are compared with the epoch of the engine
when they are published. Reservation snapshots and path catalogs are not, and an engine that begins
a new incarnation advances its epoch and keeps what is stored.
-/

namespace AdmissionFabric

/-- The inputs that a decision rests on are stamped with its epoch. -/
structure Justified (core : EngineCore) (decision : AdmissionDecision) : Prop where
  capacity : ∃ snapshot, core.capacity = some snapshot ∧ snapshot.epoch = decision.epoch
  reservations : ∃ snapshot, core.reservations = some snapshot ∧ snapshot.epoch = decision.epoch
  paths : decision.selectedPath ≠ 0 →
    ∃ catalog, core.paths = some catalog ∧ catalog.epoch = decision.epoch

/-- A coordinator, and for each input whether it was carried into the current epoch. -/
structure Tenure where
  core : EngineCore
  capacity : Bool := false
  reservations : Bool := false
  paths : Bool := false

namespace Tenure

variable {mark : Bool} {α : Type} (core : EngineCore) {operation : Operation}

/-- A new incarnation carries every input over, and replacing an input clears its mark. -/
def carries {α : Type} [DecidableEq α] (operation : Operation) (mark : Bool)
    (stored stored' : Option α) : Bool :=
  operation.beginsIncarnation || (mark && stored' = stored)

/-- The engine and its clock after an event. -/
def follow (tenure : Tenure) : Event → Tenure
  | .restart config surviving disk => { core := (tenure.core.restart config surviving disk).2 }
  | .call call =>
    let core' := tenure.core.after call
    { core := core'
      capacity := carries call.operation tenure.capacity tenure.core.capacity core'.capacity
      reservations := carries call.operation tenure.reservations tenure.core.reservations
        core'.reservations
      paths := carries call.operation tenure.paths tenure.core.paths core'.paths }

/-- Inputs carry the epoch of the engine, and requests find none that was carried into it. -/
def Current (tenure : Tenure) : Event → Prop
  | .restart _ _ _ => True
  | .call call => match call.operation with
    | .publishReservations snapshot => snapshot.epoch = tenure.core.epoch
    | .publishPaths catalog => catalog.epoch = tenure.core.epoch
    | .admitRequest request _ => tenure.capacity = false ∧ tenure.reservations = false ∧
        (request.pathCandidates ≠ [] → tenure.paths = false)
    | _ => True

/-- A coordinator to which nothing has been announced. -/
def Starting (tenure : Tenure) : Prop :=
  tenure.core.capacity = none ∧ tenure.core.reservations = none ∧ tenure.core.paths = none

/-! ### Stamps -/

/-- An input without a mark is stamped with the epoch. -/
def Stamped {α : Type} (epochOf : α → FabricEpoch) (epoch : FabricEpoch) (mark : Bool)
    (stored : Option α) : Prop :=
  mark = false → ∀ a, stored = some a → epochOf a = epoch

theorem Stamped.none {epochOf : α → FabricEpoch} {epoch : FabricEpoch} :
    Stamped epochOf epoch mark none :=
  fun _ _ h => by cases h

theorem Stamped.perform [DecidableEq α] {epochOf : α → FabricEpoch} {stored stored' : Option α}
    (h : Stamped epochOf core.epoch mark stored)
    (hstored : stored' = stored ∨ ∀ a, stored' = some a → epochOf a = core.epoch) :
    Stamped epochOf (core.perform operation).2.epoch (carries operation mark stored stored')
      stored' := by
  intro hmark a ha
  simp only [carries, Bool.or_eq_false_iff, Bool.and_eq_false_imp, decide_eq_false_iff_not] at hmark
  obtain ⟨hop, hmark⟩ := hmark
  have hepoch : (core.perform operation).2.epoch = core.epoch := by
    refine core.epoch_perform fun incarnation heq => ?_
    simp [heq, Operation.beginsIncarnation] at hop
  rw [hepoch]
  rcases hstored with hsame | hnew
  · refine h ?_ a (hsame ▸ ha)
    cases mark with
    | false => rfl
    | true => exact absurd hsame (hmark rfl)
  · exact hnew a ha

/-- What every event keeps. -/
structure Invariant (tenure : Tenure) : Prop where
  capacity : Stamped (·.epoch) tenure.core.epoch tenure.capacity tenure.core.capacity
  reservations : Stamped (·.epoch) tenure.core.epoch tenure.reservations tenure.core.reservations
  paths : Stamped (·.epoch) tenure.core.epoch tenure.paths tenure.core.paths

theorem Starting.invariant {tenure : Tenure} (h : tenure.Starting) : tenure.Invariant := by
  obtain ⟨hcapacity, hreservations, hpaths⟩ := h
  exact ⟨hcapacity ▸ .none, hreservations ▸ .none, hpaths ▸ .none⟩

theorem capacity_perform_stamped (operation : Operation) :
    (core.perform operation).2.capacity = core.capacity ∨
      ∀ a, (core.perform operation).2.capacity = some a → a.epoch = core.epoch := by
  by_cases hpublish : ∃ snapshot, operation = .publishCapacity snapshot
  · obtain ⟨snapshot, rfl⟩ := hpublish
    refine (core.publishCapacity_effect snapshot).announced_eq.imp ?_ ?_
    · exact fun h => congrArg EngineCore.Announced.capacity h
    · rintro ⟨hchecked, hinstalled⟩ a ha
      have hsome : _ = some snapshot := congrArg EngineCore.Announced.capacity hinstalled
      obtain rfl : snapshot = a := Option.some.inj (hsome.symm.trans ha)
      simp only [checkFencedPublication, check_bind_eq_ok_iff, rejectIf_eq_ok_iff, not_not]
        at hchecked
      exact hchecked.2.1
  · by_cases hinvalidate : operation = .invalidateCapacity
    · subst hinvalidate
      exact Or.inr fun a ha => by cases ha
    · exact Or.inl (core.capacity_perform (fun s hs => hpublish ⟨s, hs⟩) hinvalidate)

theorem reservations_perform_stamped
    (hguard : ∀ snapshot, operation = .publishReservations snapshot →
      snapshot.epoch = core.epoch) :
    (core.perform operation).2.reservations = core.reservations ∨
      ∀ a, (core.perform operation).2.reservations = some a → a.epoch = core.epoch := by
  by_cases hpublish : ∃ snapshot, operation = .publishReservations snapshot
  · obtain ⟨snapshot, rfl⟩ := hpublish
    refine (core.publishReservations_effect snapshot).announced_eq.imp ?_ ?_
    · exact fun h => congrArg EngineCore.Announced.reservations h
    · rintro ⟨-, hinstalled⟩ a ha
      have hsome : _ = some snapshot := congrArg EngineCore.Announced.reservations hinstalled
      exact Option.some.inj (hsome.symm.trans ha) ▸ hguard snapshot rfl
  · exact Or.inl (core.reservations_perform fun s hs => hpublish ⟨s, hs⟩)

theorem paths_perform_stamped
    (hguard : ∀ catalog, operation = .publishPaths catalog → catalog.epoch = core.epoch) :
    (core.perform operation).2.paths = core.paths ∨
      ∀ a, (core.perform operation).2.paths = some a → a.epoch = core.epoch := by
  by_cases hpublish : ∃ catalog, operation = .publishPaths catalog
  · obtain ⟨catalog, rfl⟩ := hpublish
    refine (core.publishPaths_effect catalog).announced_eq.imp ?_ ?_
    · exact fun h => congrArg EngineCore.Announced.paths h
    · rintro ⟨-, hinstalled⟩ a ha
      have hsome : _ = some catalog := congrArg EngineCore.Announced.paths hinstalled
      exact Option.some.inj (hsome.symm.trans ha) ▸ hguard catalog rfl
  · by_cases hinvalidate : operation = .invalidatePaths
    · subst hinvalidate
      exact Or.inr fun a ha => by cases ha
    · exact Or.inl (core.paths_perform (fun c hc => hpublish ⟨c, hc⟩) hinvalidate)

theorem starting_restart (config : EngineConfig) (surviving : Nat) (disk : List DiskOutcome) :
    Starting { core := (core.restart config surviving disk).2 } := by
  unfold EngineCore.restart
  split
  · exact ⟨rfl, rfl, rfl⟩
  · rename_i journal _
    have h := EngineCore.announced_boot config { journal.cut surviving with disk }
    exact ⟨congrArg EngineCore.Announced.capacity h,
      congrArg EngineCore.Announced.reservations h, congrArg EngineCore.Announced.paths h⟩

theorem Invariant.follow {tenure : Tenure} (h : tenure.Invariant) {event : Event}
    (hguard : tenure.Current event) : (tenure.follow event).Invariant := by
  cases event with
  | restart config surviving disk =>
    exact (starting_restart tenure.core config surviving disk).invariant
  | call call =>
    have hreservations : ∀ snapshot, call.operation = .publishReservations snapshot →
        snapshot.epoch = tenure.core.epoch := by
      intro snapshot hop
      simpa only [Current, hop] using hguard
    have hpaths : ∀ catalog, call.operation = .publishPaths catalog →
        catalog.epoch = tenure.core.epoch := by
      intro catalog hop
      simpa only [Current, hop] using hguard
    let core := tenure.core.onDisk call.disk
    exact ⟨.perform core h.capacity (capacity_perform_stamped core call.operation),
      .perform core h.reservations (reservations_perform_stamped core hreservations),
      .perform core h.paths (paths_perform_stamped core hpaths)⟩

/-! ### Admissions -/

theorem paths_of_selected {core : EngineCore} {request : AdmissionRequest} {claim : ClaimContext}
    {grant : Grant} (h : core.verdict request claim = .grant grant)
    (hpath : grant.evidence.path ≠ 0) :
    request.pathCandidates ≠ [] ∧ ∃ catalog, core.paths = some catalog := by
  obtain ⟨-, -, -, hevaluate⟩ := EngineCore.verdict_eq_grant h
  obtain ⟨selection, ceiling, binding, hresolve, -, -, hselected, -⟩ :=
    Authority.evaluate_eq_ok hevaluate
  obtain ⟨-, -, -, hselect, -⟩ := Authority.resolve_eq_ok_iff.mp hresolve
  have hcandidates : request.pathCandidates ≠ [] := by
    intro hnil
    rw [Authority.selectPath, if_pos hnil] at hselect
    split at hselect
    · cases hselect
    · obtain rfl := Except.ok.inj hselect
      exact hpath hselected
  obtain ⟨policy, -, -, huses⟩ := (EngineCore.authorizes_of_verdict h).policy
  obtain ⟨catalog, hcatalog, -⟩ := huses (Or.inl hcandidates)
  exact ⟨hcandidates, catalog, hcatalog⟩

open TransitionSystem (Reachable Allowed run)

/-- In every run whose reservation and path inputs carry the epoch of the engine, a fresh
admission that finds no input carried into its epoch is justified by inputs of that epoch. -/
theorem justified_of_reachable {tenure : Tenure} {request : AdmissionRequest}
    {claim : ClaimContext} {disk : List DiskOutcome} {decision : AdmissionDecision}
    {core' : EngineCore} (h : Reachable Starting Tenure.follow Current tenure)
    (hguard : tenure.Current (.call ⟨.admitRequest request claim, disk⟩))
    (hcall : (tenure.core.onDisk disk).admitLocked request claim = (.ok decision, core'))
    (hadmitting : decision.outcome.isAdmitting = true)
    (hfresh : decision.idempotentReplay = false) : Justified tenure.core decision := by
  have hinvariant : tenure.Invariant := h.invariant (fun _ hstart => hstart.invariant)
    fun _ _ htenure hevent => htenure.follow hevent
  obtain ⟨hcapacity, hreservations, hpaths⟩ := hguard
  obtain ⟨grant, hverdict, rfl⟩ := EngineCore.admitLocked_fresh hcall hadmitting hfresh
  have hauthorizes := EngineCore.authorizes_of_verdict hverdict
  obtain ⟨capacity, hsome, -⟩ := hauthorizes.capacity
  obtain ⟨reservations, hsome', -⟩ := hauthorizes.reservations
  refine ⟨⟨capacity, hsome, hinvariant.capacity hcapacity capacity hsome⟩,
    ⟨reservations, hsome', hinvariant.reservations hreservations reservations hsome'⟩, ?_⟩
  intro hselected
  obtain ⟨hcandidates, catalog, hcatalog⟩ := paths_of_selected hverdict hselected
  exact ⟨catalog, hcatalog, hinvariant.paths (hpaths hcandidates) catalog hcatalog⟩

section Examples

open SmallFabric

/-- The publications of the small fabric, and its inputs again under the second epoch. -/
def reannouncedEvents : List Event :=
  Event.calls (announce [known 1 1 50] ++ [.beginNewIncarnation 0,
    .publishPolicy { policy with generation := 2, epoch := 2 },
    .publishCapacity { SmallFabric.capacity 2 [known 1 1 50] with epoch := 2 },
    .publishReservations { SmallFabric.reservations with generation := 2, epoch := 2 }])

/-- An engine that was announced everything again. -/
def reannounced : Tenure := run Tenure.follow { core := EngineCore.fresh {} } reannouncedEvents

/-- A request that states the generations of the second epoch. -/
def secondRequest : AdmissionRequest :=
  { request 1 ⟨30, 30, 30⟩ [1] with
    expected := { (request 1 ⟨30, 30, 30⟩ [1]).expected with
      capacityGeneration := 2
      reservationGeneration := 2
      policyGeneration := 2 } }

instance (tenure : Tenure) (event : Event) : Decidable (tenure.Current event) := by
  rcases event with ⟨operation, disk⟩ | ⟨config, surviving, disk⟩
  · induction operation using Operation.casesOn with
    | publishReservations snapshot => exact inferInstanceAs (Decidable (_ = _))
    | publishPaths catalog => exact inferInstanceAs (Decidable (_ = _))
    | admitRequest request claim => exact inferInstanceAs (Decidable (_ ∧ _ ∧ (_ → _)))
    | _ => exact instDecidableTrue
  · exact instDecidableTrue

/-- Inputs that are replaced under the new epoch justify what is admitted in it. -/
theorem justified_reannounced : ∃ decision core',
    (reannounced.core.onDisk []).admitLocked secondRequest {} = (.ok decision, core') ∧
      Justified reannounced.core decision := by
  have hallowed : Allowed Tenure.follow Current { core := EngineCore.fresh {} }
      reannouncedEvents := by decide +kernel
  have hstart : Starting { core := EngineCore.fresh {} } := ⟨rfl, rfl, rfl⟩
  have hreachable : Reachable Starting Tenure.follow Current reannounced :=
    (Reachable.init hstart).run hallowed
  have hgrants : (reannounced.core.onDisk []).grantsFresh secondRequest {} = true := by
    decide +kernel
  obtain ⟨decision, core', hcall, hadmitting, hfresh⟩ :=
    EngineCore.grantsFresh_eq_true_iff.mp hgrants
  exact ⟨decision, core', hcall, justified_of_reachable hreachable (by decide +kernel) hcall
    hadmitting hfresh⟩

/-- The engine of the first epoch, with reservations that carry an epoch of their own. -/
def foreignCore : EngineCore :=
  (EngineCore.fresh {}).performAll
    ([.publishReservations { SmallFabric.reservations with epoch := 7 }] ++ announce [known 1 1 50])

/-- The engine that has begun a second incarnation over the inputs of the first. -/
def carriedCore : EngineCore :=
  (EngineCore.fresh {}).performAll (announce [known 1 1 50] ++ [.beginNewIncarnation 0])

/-- A call is answered with a fresh admission that its inputs do not justify. -/
def AdmitsUnjustified (core : EngineCore) (request : AdmissionRequest) : Prop :=
  ∃ decision core', core.admitLocked request {} = (.ok decision, core') ∧
    decision.outcome.isAdmitting = true ∧ decision.idempotentReplay = false ∧
    ¬ Justified core decision

theorem admitsUnjustified_of_epoch {core : EngineCore} {request : AdmissionRequest}
    (hgrants : core.grantsFresh request {} = true)
    (hepoch : (core.reservations.map (·.epoch)) ≠ some core.epoch) :
    AdmitsUnjustified core request := by
  obtain ⟨decision, core', hcall, hadmitting, hfresh⟩ :=
    EngineCore.grantsFresh_eq_true_iff.mp hgrants
  refine ⟨decision, core', hcall, hadmitting, hfresh, fun h => hepoch ?_⟩
  obtain ⟨grant, -, rfl⟩ := EngineCore.admitLocked_fresh hcall hadmitting hfresh
  obtain ⟨snapshot, hsnapshot, hstamp⟩ := h.reservations
  rw [hsnapshot, Option.map_some, hstamp]
  rfl

/-- Reservations of another epoch justify an admission, and so do inputs of an epoch that is
over. -/
theorem unjustified_admissions :
    AdmitsUnjustified foreignCore (request 1 ⟨30, 30, 30⟩ [1]) ∧
      AdmitsUnjustified carriedCore (request 1 ⟨30, 30, 30⟩ [1]) :=
  ⟨admitsUnjustified_of_epoch (by decide +kernel) (by decide +kernel),
    admitsUnjustified_of_epoch (by decide +kernel) (by decide +kernel)⟩

end Examples

end Tenure

end AdmissionFabric
