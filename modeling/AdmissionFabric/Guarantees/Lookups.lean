import AdmissionFabric.Engine.Core

/-!
# Lookups and the published snapshots

The engine looks entries up by bisection and keeps two indices over the obligations. Bisection is
right on strictly increasing identities, which the validation of every published input
guarantees; the indices are right because they are rebuilt whenever the snapshot is replaced. An
`Authority` carries both facts, so the lookups agree with a linear scan of the snapshots in every
state of the engine, whatever was published, refused, invalidated or restarted before.

The validation also bounds the obligations on one resource, so the totals never saturate.
-/

namespace AdmissionFabric

open SortedSearch (findBy bisect)

/-- A lookup bisects a list, and finds what a linear scan of the list finds. -/
def FindsIn {α : Type} (lookup : UInt64 → Option α) (project : α → UInt64) (items : List α) :
    Prop :=
  ∀ key, lookup key = bisect project items key ∧
    lookup key = items.find? (project · = key)

theorem findsIn_of_pairwise {α β : Type} {snapshot : Option β} {itemsOf : β → List α}
    {project : α → UInt64}
    (hsorted : ∀ s ∈ snapshot, (itemsOf s).Pairwise fun a b => project a < project b) :
    FindsIn (fun key => snapshot.bind fun s => findBy project (itemsOf s) key) project
      ((snapshot.map itemsOf).getD []) := by
  intro key
  cases snapshot with
  | none => exact ⟨rfl, rfl⟩
  | some s =>
    have hpairwise := hsorted s rfl
    exact ⟨(SortedSearch.bisect_eq_findBy hpairwise key).symm,
      SortedSearch.findBy_eq_find hpairwise key⟩

namespace Authority

theorem obligationReleasesWithin_iff {authority : Authority} {resource : ResourceId}
    {horizon : UInt64} :
    authority.obligationReleasesWithin resource horizon = true ↔
      ∃ obligation ∈ obligationsOf authority.reservations, obligation.resource = resource ∧
        obligation.inviolable = false ∧ authority.tick < obligation.releaseTick ∧
          obligation.releaseTick ≤ horizon := by
  simp only [obligationReleasesWithin, List.any_eq_true, mem_indexedObligations, Bool.and_eq_true,
    Bool.not_eq_true', decide_eq_true_eq, and_assoc]

/-- In every state the lookups find what a scan of the published snapshots finds, the obligations
on a resource are their exact sum, and the releases within a horizon are those of the published
obligations. -/
theorem lookups_agree (authority : Authority) :
    FindsIn authority.findCapacity ResourceCapacity.resource
      ((authority.capacity.map CapacitySnapshot.resources).getD []) ∧
    FindsIn authority.findPath PathAdmissionFact.path
      ((authority.paths.map PathCatalog.paths).getD []) ∧
    FindsIn authority.findQos QoSClassFact.qos
      ((authority.qos.map QoSClassCatalog.classes).getD []) ∧
    FindsIn authority.findPriority PriorityClassFact.priority
      ((authority.priorities.map PriorityClassCatalog.classes).getD []) ∧
    (∀ resource, (authority.obligationsFor resource).toNat =
      (((obligationsOf authority.reservations).filter (·.resource = resource)).map
        (·.reserved.toNat)).sum) ∧
    ∀ resource horizon, authority.obligationReleasesWithin resource horizon = true ↔
      ∃ obligation ∈ obligationsOf authority.reservations, obligation.resource = resource ∧
        obligation.inviolable = false ∧ authority.tick < obligation.releaseTick ∧
          obligation.releaseTick ≤ horizon := by
  refine ⟨findsIn_of_pairwise fun c hc => ?_, findsIn_of_pairwise fun c hc => ?_,
    findsIn_of_pairwise fun c hc => ?_, findsIn_of_pairwise fun c hc => ?_,
    authority.toNat_obligationsFor, fun _ _ => obligationReleasesWithin_iff⟩
  · exact CapacitySnapshot.pairwise_of_validate (authority.capacityValid c hc)
  · exact PathCatalog.pairwise_of_validate (authority.pathsValid c hc)
  · exact QoSClassCatalog.pairwise_of_validate (authority.qosValid c hc)
  · exact PriorityClassCatalog.pairwise_of_validate (authority.prioritiesValid c hc)

end Authority

end AdmissionFabric
