import AdmissionFabric.Engine.Announced
import AdmissionFabric.Engine.SmallFabric

/-!
# A generation identifies one observation

Decisions and revalidation compare generations only, so they rely on a law: along a run the
accepted generations of an input never decrease, and a generation that is accepted twice names
the same content both times.

Each publication compares its input with the one that is stored. The law therefore holds as long
as something is stored; after `invalidate_capacity` or `invalidate_paths` there is nothing to
compare with, and a publication is accepted whatever was accepted before.
-/

namespace AdmissionFabric

variable (a : CapacitySnapshot) {what : String} {install : Bool}

/-! ### Lists of observations -/

section Observations

variable {α : Type} (generation : α → Generation) (same : α → α → Bool)

/-- The later observation is not older, and at the same generation has the same content. -/
def Follows (a b : α) : Prop :=
  generation a ≤ generation b ∧ (generation a = generation b → same a b = true)

/-- Every observation follows all the earlier ones. -/
def Orderly (observations : List α) : Prop := observations.Pairwise (Follows generation same)

/-- An orderly list whose observations are all followed by the stored one. -/
structure Bounded (observations : List α) (stored : Option α) : Prop where
  orderly : Orderly generation same observations
  followed : ∀ b, stored = some b → ∀ a ∈ observations, Follows generation same a b

variable {generation same} {observations : List α} {stored : Option α} {input : α}

theorem Bounded.cleared (h : Bounded generation same observations stored) :
    Bounded generation same observations none :=
  ⟨h.orderly, fun _ hb => by cases hb⟩

theorem checkAdvance_some_eq_ok {existing : α}
    (h : checkAdvance generation same what (some existing) input = .ok install) :
    if install then generation existing < generation input
    else generation input = generation existing ∧ same input existing = true := by
  simp only [checkAdvance, check_bind_eq_ok_iff, rejectIf_eq_ok_iff, UInt64.not_lt] at h
  obtain ⟨hle, h⟩ := h
  split at h
  · rename_i heq
    simp only [check_bind_eq_ok_iff, rejectIf_eq_ok_iff, pure, Except.pure, Except.ok.injEq] at h
    obtain ⟨hsame, rfl⟩ := h
    exact ⟨heq, by simpa using hsame⟩
  · rename_i hne
    obtain rfl := Except.ok.inj h
    exact UInt64.lt_of_le_of_ne hle fun heq => hne heq.symm

theorem Bounded.publish (hrefl : ∀ a, same a a = true)
    (heuclidean : ∀ a b c, same a c = true → same b c = true → same a b = true)
    (h : Bounded generation same observations stored)
    (hguard : stored = none → ∀ a ∈ observations, Follows generation same a input)
    (hchecked : checkAdvance generation same what stored input = .ok install) :
    Bounded generation same (observations ++ [input]) (if install then some input else stored) ∧
      (install = true → Bounded generation same observations (some input)) := by
  have hfollows : ∀ a ∈ observations, Follows generation same a input := by
    cases stored with
    | none => exact hguard rfl
    | some existing =>
      intro a ha
      obtain ⟨hle, hsame⟩ := h.followed existing rfl a ha
      have hexisting := checkAdvance_some_eq_ok hchecked
      cases install with
      | true =>
        have hlt : generation a < generation input := UInt64.lt_of_le_of_lt hle hexisting
        exact ⟨UInt64.le_of_lt hlt, fun heq => absurd heq (UInt64.ne_of_lt hlt)⟩
      | false =>
        obtain ⟨heq, hinput⟩ := hexisting
        exact ⟨heq ▸ hle, fun h => heuclidean _ _ _ (hsame (h.trans heq)) hinput⟩
  have horderly : Orderly generation same (observations ++ [input]) :=
    List.pairwise_append.mpr ⟨h.orderly, List.pairwise_singleton _ _, by simpa using hfollows⟩
  refine ⟨⟨horderly, fun b hb a ha => ?_⟩, fun _ => ⟨h.orderly, fun b hb => ?_⟩⟩
  · rcases List.mem_append.mp ha with ha | ha
    · cases install with
      | true => exact Option.some.inj hb ▸ hfollows a ha
      | false => exact h.followed b hb a ha
    · obtain rfl := List.mem_singleton.mp ha
      cases install with
      | true => exact Option.some.inj hb ▸ ⟨UInt64.le_refl _, fun _ => hrefl a⟩
      | false =>
        obtain rfl : stored = some b := hb
        obtain ⟨heq, hsame⟩ := checkAdvance_some_eq_ok hchecked
        exact ⟨heq ▸ UInt64.le_refl _, fun _ => hsame⟩
  · exact Option.some.inj hb ▸ hfollows

end Observations

theorem CapacitySnapshot.contentEqual_refl : a.contentEqual a = true := by
  simp [contentEqual]

theorem CapacitySnapshot.contentEqual_euclidean (b c : CapacitySnapshot)
    (hac : a.contentEqual c = true) (hbc : b.contentEqual c = true) : a.contentEqual b = true := by
  simp only [contentEqual, decide_eq_true_eq] at *
  simp only [hac, hbc, and_self]

theorem PathCatalog.contentEqual_refl (a : PathCatalog) : a.contentEqual a = true := by
  simp [contentEqual]

theorem PathCatalog.contentEqual_euclidean (a b c : PathCatalog)
    (hac : a.contentEqual c = true) (hbc : b.contentEqual c = true) : a.contentEqual b = true := by
  simp only [contentEqual, decide_eq_true_eq] at *
  simp only [hac, hbc, and_self]

/-! ### Engines that are observed -/

/-- An engine with the capacity snapshots and the path catalogs it has accepted, in order. -/
structure Observed where
  core : EngineCore
  capacities : List CapacitySnapshot := []
  catalogs : List PathCatalog := []

/-- The capacity snapshot that a call has accepted. -/
def acceptedCapacity : Operation → Answer → List CapacitySnapshot
  | .publishCapacity snapshot, .status (.ok ()) => [snapshot]
  | _, _ => []

/-- The path catalog that a call has accepted. -/
def acceptedCatalog : Operation → Answer → List PathCatalog
  | .publishPaths catalog, .status (.ok ()) => [catalog]
  | _, _ => []

namespace Observed

variable {operation : Operation} {epoch : FabricEpoch} {core : EngineCore}

/-- The engine after a call, with what the call has accepted. -/
def after (observed : Observed) (call : Call) : Observed :=
  let result := (observed.core.onDisk call.disk).perform call.operation
  { core := result.2
    capacities := observed.capacities ++ acceptedCapacity call.operation result.1
    catalogs := observed.catalogs ++ acceptedCatalog call.operation result.1 }

/-- The law: generations never decrease, and each names one content. -/
structure Lawful (observed : Observed) : Prop where
  capacities : Orderly (·.generation) CapacitySnapshot.contentEqual observed.capacities
  catalogs : Orderly (·.pathAuthorityGeneration) PathCatalog.contentEqual observed.catalogs

/-- A publication that finds nothing stored follows everything accepted so far. -/
def Resumes (observed : Observed) (call : Call) : Prop :=
  match call.operation with
  | .publishCapacity snapshot => observed.core.capacity = none → ∀ a ∈ observed.capacities,
      Follows (·.generation) CapacitySnapshot.contentEqual a snapshot
  | .publishPaths catalog => observed.core.paths = none → ∀ a ∈ observed.catalogs,
      Follows (·.pathAuthorityGeneration) PathCatalog.contentEqual a catalog
  | _ => True

/-- An engine that has accepted nothing yet. -/
def Starting (observed : Observed) : Prop := observed.capacities = [] ∧ observed.catalogs = []

/-- Everything accepted is lawful and followed by what is stored. -/
structure Invariant (observed : Observed) : Prop where
  capacities : Bounded (·.generation) CapacitySnapshot.contentEqual observed.capacities
    observed.core.capacity
  catalogs : Bounded (·.pathAuthorityGeneration) PathCatalog.contentEqual observed.catalogs
    observed.core.paths

theorem Starting.invariant {observed : Observed} (h : observed.Starting) : observed.Invariant := by
  obtain ⟨hcapacities, hcatalogs⟩ := h
  constructor
  · rw [hcapacities]
    exact ⟨List.Pairwise.nil, fun _ _ _ ha => absurd ha List.not_mem_nil⟩
  · rw [hcatalogs]
    exact ⟨List.Pairwise.nil, fun _ _ _ ha => absurd ha List.not_mem_nil⟩

theorem checkAdvance_of_checkFencedPublication {α : Type} {generation : α → Generation}
    {same : α → α → Bool} {epochOf : α → FabricEpoch} {stored : Option α} {input : α}
    (h : checkFencedPublication generation same epochOf what epoch stored input = .ok install) :
    checkAdvance generation same what stored input = .ok install := by
  simp only [checkFencedPublication, check_bind_eq_ok_iff] at h
  exact h.2.2

theorem checkAdvance_of_checkPublication {α : Type} {generation : α → Generation}
    {same : α → α → Bool} {stored : Option α} {input : α}
    (h : checkPublication generation same what epoch stored input = .ok install) :
    checkAdvance generation same what stored input = .ok install := by
  simp only [checkPublication, check_bind_eq_ok_iff] at h
  exact h.2

theorem bounded_of_publishEffect {α : Type} {generation : α → Generation} {same : α → α → Bool}
    (hrefl : ∀ a, same a a = true)
    (heuclidean : ∀ a b c, same a c = true → same b c = true → same a b = true)
    {observations : List α} {input : α} {checked : Except Status Bool}
    {installed : EngineCore.Announced} {outcome : Outcome Unit}
    (stored : EngineCore.Announced → Option α) (hinstalled : stored installed = some input)
    (hchecked : ∀ install, checked = .ok install →
      checkAdvance generation same what (stored core.announced) input = .ok install)
    (h : Bounded generation same observations (stored core.announced))
    (hguard : stored core.announced = none →
      ∀ a ∈ observations, Follows generation same a input)
    (heffect : EngineCore.PublishEffect core checked installed outcome) :
    Bounded generation same
      (observations ++ match outcome.1 with | .ok () => [input] | .error _ => [])
      (stored outcome.2.announced) := by
  cases heffect with
  | refused heq =>
    rw [heq]
    simpa using h
  | current hfalse => exact (h.publish hrefl heuclidean hguard (hchecked _ hfalse)).1
  | installed htrue heq =>
    obtain ⟨haccepted, hrefused⟩ := h.publish hrefl heuclidean hguard (hchecked _ htrue)
    rw [heq, hinstalled]
    cases outcome.1 with
    | ok u => exact haccepted
    | error status => simpa using hrefused rfl

theorem bounded_capacities {capacities : List CapacitySnapshot}
    (h : Bounded (·.generation) CapacitySnapshot.contentEqual capacities core.capacity)
    (hguard : ∀ snapshot, operation = .publishCapacity snapshot → core.capacity = none →
      ∀ a ∈ capacities, Follows (·.generation) CapacitySnapshot.contentEqual a snapshot) :
    Bounded (·.generation) CapacitySnapshot.contentEqual
      (capacities ++ acceptedCapacity operation (core.perform operation).1)
      (core.perform operation).2.capacity := by
  cases operation
  case publishCapacity snapshot =>
    have hbounded := bounded_of_publishEffect CapacitySnapshot.contentEqual_refl
      CapacitySnapshot.contentEqual_euclidean EngineCore.Announced.capacity rfl
      (fun _ => checkAdvance_of_checkFencedPublication) h (hguard snapshot rfl)
      (core.publishCapacity_effect snapshot)
    simp only [EngineCore.perform]
    generalize core.publishCapacity snapshot = outcome at hbounded ⊢
    obtain ⟨status | ⟨⟩, core'⟩ := outcome <;> exact hbounded
  case invalidateCapacity =>
    rw [acceptedCapacity, List.append_nil]
    · exact h.cleared
    · simp
  all_goals
    rw [acceptedCapacity, List.append_nil, core.capacity_perform (by simp) (by simp)]
    · exact h
    · simp

theorem bounded_catalogs {catalogs : List PathCatalog}
    (h : Bounded (·.pathAuthorityGeneration) PathCatalog.contentEqual catalogs core.paths)
    (hguard : ∀ catalog, operation = .publishPaths catalog → core.paths = none →
      ∀ a ∈ catalogs, Follows (·.pathAuthorityGeneration) PathCatalog.contentEqual a catalog) :
    Bounded (·.pathAuthorityGeneration) PathCatalog.contentEqual
      (catalogs ++ acceptedCatalog operation (core.perform operation).1)
      (core.perform operation).2.paths := by
  cases operation
  case publishPaths catalog =>
    have hbounded := bounded_of_publishEffect PathCatalog.contentEqual_refl
      PathCatalog.contentEqual_euclidean EngineCore.Announced.paths rfl
      (fun _ => checkAdvance_of_checkPublication) h (hguard catalog rfl)
      (core.publishPaths_effect catalog)
    simp only [EngineCore.perform]
    generalize core.publishPaths catalog = outcome at hbounded ⊢
    obtain ⟨status | ⟨⟩, core'⟩ := outcome <;> exact hbounded
  case invalidatePaths =>
    rw [acceptedCatalog, List.append_nil]
    · exact h.cleared
    · simp
  all_goals
    rw [acceptedCatalog, List.append_nil, core.paths_perform (by simp) (by simp)]
    · exact h
    · simp

theorem Invariant.after {observed : Observed} (h : observed.Invariant) {call : Call}
    (hguard : observed.Resumes call) : (observed.after call).Invariant := by
  constructor
  · have hcapacities : Bounded _ _ observed.capacities (observed.core.onDisk call.disk).capacity :=
      h.capacities
    refine bounded_capacities hcapacities ?_
    intro snapshot hoperation
    simp only [Resumes, hoperation] at hguard
    exact hguard
  · have hcatalogs : Bounded _ _ observed.catalogs (observed.core.onDisk call.disk).paths :=
      h.catalogs
    refine bounded_catalogs hcatalogs ?_
    intro catalog hoperation
    simp only [Resumes, hoperation] at hguard
    exact hguard

open TransitionSystem (Reachable Allowed run)

/-- In every run of an engine in which a publication that finds nothing stored does not break the
law, the law holds. -/
theorem lawful_of_reachable {observed : Observed}
    (h : Reachable Starting Observed.after Resumes observed) : observed.Lawful := by
  have hinvariant : observed.Invariant := h.invariant (fun _ hstart => hstart.invariant)
    fun _ _ hobserved hguard => hobserved.after hguard
  exact ⟨hinvariant.capacities.orderly, hinvariant.catalogs.orderly⟩

section Examples

open SmallFabric

/-- Publications with these generations and rates, each after an invalidation. -/
def invalidatedRun (publications : List (Generation × Rate)) : List Call :=
  publications.flatMap fun p =>
    [{ operation := .invalidateCapacity },
      { operation := .publishCapacity (capacity p.1 [known 1 1 p.2]) }]

/-- What a fresh engine has accepted after such a run. -/
def observedRun (publications : List (Generation × Rate)) : Observed :=
  run Observed.after { core := EngineCore.fresh {} } (invalidatedRun publications)

instance {α : Type} (generation : α → Generation) (same : α → α → Bool) (a b : α) :
    Decidable (Follows generation same a b) :=
  inferInstanceAs (Decidable (_ ∧ _))

instance (observed : Observed) : ∀ call, Decidable (observed.Resumes call)
  | ⟨operation, _⟩ => by
    induction operation using Operation.casesOn with
    | publishCapacity snapshot => exact inferInstanceAs (Decidable (_ → _))
    | publishPaths catalog => exact inferInstanceAs (Decidable (_ → _))
    | _ => exact instDecidableTrue

/-- A run whose generations advance over the invalidations. -/
theorem lawful_observedRun : (observedRun [(1, 50), (2, 10)]).Lawful := by
  have hallowed : Allowed Observed.after Resumes { core := EngineCore.fresh {} }
      (invalidatedRun [(1, 50), (2, 10)]) := by decide +kernel
  have hstart : Reachable Starting Observed.after Resumes { core := EngineCore.fresh {} } :=
    .init ⟨rfl, rfl⟩
  exact lawful_of_reachable (hstart.run hallowed)

/-- After an invalidation an older generation is accepted, and so is the same generation with
another content. -/
theorem not_lawful_observedRun :
    ¬ (observedRun [(2, 50), (1, 50)]).Lawful ∧ ¬ (observedRun [(1, 50), (1, 10)]).Lawful := by
  have hback : (observedRun [(2, 50), (1, 50)]).capacities =
      [capacity 2 [known 1 1 50], capacity 1 [known 1 1 50]] := by decide +kernel
  have hreused : (observedRun [(1, 50), (1, 10)]).capacities =
      [capacity 1 [known 1 1 50], capacity 1 [known 1 1 10]] := by decide +kernel
  constructor
  · intro h
    have hfollows := (List.pairwise_cons.mp (hback ▸ h.capacities)).1 _ List.mem_cons_self
    exact absurd hfollows.1 (by decide)
  · intro h
    have hfollows := (List.pairwise_cons.mp (hreused ▸ h.capacities)).1 _ List.mem_cons_self
    exact absurd (hfollows.2 rfl) (by decide)

end Examples

end Observed

end AdmissionFabric
