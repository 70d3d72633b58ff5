import AdmissionFabric.Model.State

/-!
# Admission policy

The policy is owned and published by the policy authority. Admission evaluates it and never
derives or changes it.

Source: `include/naf/model/policy.hpp`, `src/model/policy.cpp`.
-/

namespace AdmissionFabric

/-- What the policy does under contention. -/
inductive ContentionAction
  | defer
  | reject
  deriving DecidableEq, Repr

/-- The published policy. -/
structure AdmissionPolicy where
  id : PolicyId
  generation : Generation
  epoch : FabricEpoch
  observedTick : UInt64 := 0
  headroomPermille : UInt32 := 0
  headroomFloor : Rate := 0
  allowDegraded : Bool := true
  allowPreemptibleAdmission : Bool := true
  requirePathBinding : Bool := false
  requireReservationReference : Bool := false
  allowPathSubstitution : Bool := true
  onContention : ContentionAction := .reject
  allowedQos : List QoSClassId := []
  allowedPriorities : List PriorityClassId := []
  maxExplanationConstraints : UInt32 := 16
  maxExplanationBytes : UInt32 := 4096
  maxEffectiveResources : UInt32 := 16
  deferHorizonTicks : UInt64 := 0
  deriving DecidableEq, Repr

/-- A list has to be increasing. -/
def checkSortedUnique (values : List UInt64) (what : String) : Except Status Unit := do
  rejectIf (values.length > Limits.maxAllowedClasses) (oversized (what ++ " list is too large"))
  checkIncreasing id
    (malformed (what ++ " list contains an unknown id"))
    (malformed (what ++ " list is not strictly increasing"))
    (fun _ => .ok ()) none values

/-- The contract of a policy. -/
def AdmissionPolicy.validate (policy : AdmissionPolicy) : Except Status Unit := do
  rejectIf (policy.id = 0) (malformed "policy id is unknown")
  rejectIf (¬ policy.generation.isWellFormed) (malformed "policy generation is not well formed")
  rejectIf (policy.epoch = 0) (malformed "policy epoch is not well formed")
  rejectIf (policy.headroomPermille > 1000) (malformed "policy headroom permille exceeds 1000")
  rejectIf (policy.maxExplanationConstraints = 0 ∨
      policy.maxExplanationConstraints.toNat > Limits.maxExplanationConstraints)
    (malformed "policy explanation constraint bound is out of range")
  rejectIf (policy.maxExplanationBytes < 128 ∨
      policy.maxExplanationBytes.toNat > Limits.maxExplanationBytes)
    (malformed "policy explanation byte bound is out of range")
  rejectIf (policy.maxEffectiveResources = 0 ∨
      policy.maxEffectiveResources.toNat > Limits.maxEffectiveResources)
    (malformed "policy effective resource bound is out of range")
  checkSortedUnique policy.allowedQos "allowed qos"
  checkSortedUnique policy.allowedPriorities "allowed priority"

end AdmissionFabric
