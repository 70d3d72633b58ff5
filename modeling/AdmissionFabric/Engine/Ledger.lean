import AdmissionFabric.Core.Checked
import AdmissionFabric.Core.Status
import AdmissionFabric.Library.OrderedMap

/-!
# The admitted load ledger

The only place admitted load lives: per-resource totals, per-path totals and, for each decision,
the entries it holds. A reservation is all or nothing; a release removes every entry of one
decision.

Two behaviours of the source shape what can be proved. A total that reaches zero is erased from
its map, and `release` refuses when the total of one of its resources is absent, so a grant of
zero can become impossible to release. And `reserve` adds one grant to the total of the path,
while `release` subtracts the sum over all entries of the decision.

Source: `include/naf/engine/ledger.hpp`, `src/engine/ledger.cpp`.
-/

namespace AdmissionFabric

/-- What a decision holds on a resource. -/
structure LedgerEntry where
  decision : AdmissionDecisionId
  demand : DemandId
  resource : ResourceId
  amount : Rate
  path : PathId := 0
  epoch : FabricEpoch := 0
  boundCapacityGeneration : Generation := 0
  requiresRevalidation : Bool := false
  deriving DecidableEq, Repr

/-- Per-resource admitted load with per-decision provenance. -/
structure AdmittedLoadLedger where
  totals : Std.ExtTreeMap ResourceId Rate := ∅
  pathTotals : Std.ExtTreeMap PathId Rate := ∅
  byDecision : Std.ExtTreeMap AdmissionDecisionId (List LedgerEntry) := ∅
  entryCount : Nat := 0

namespace AdmittedLoadLedger

/-! ### Queries -/

/-- A decision holds load. -/
def holds (ledger : AdmittedLoadLedger) (decision : AdmissionDecisionId) : Bool :=
  (ledger.byDecision[decision]?).isSome

/-- The total of a resource. -/
def admitted (ledger : AdmittedLoadLedger) (resource : ResourceId) : Rate :=
  ledger.totals.getD resource 0

/-- The total of a path. -/
def admittedOnPath (ledger : AdmittedLoadLedger) (path : PathId) : Rate :=
  if path = 0 then 0 else ledger.pathTotals.getD path 0

/-- The number of decisions that hold load. -/
def liveDecisions (ledger : AdmittedLoadLedger) : Nat := ledger.byDecision.size

/-- The entries held by one decision. -/
def held (ledger : AdmittedLoadLedger) (decision : AdmissionDecisionId) : List LedgerEntry :=
  ledger.byDecision.getD decision []

/-- Every held entry, decision by decision. -/
def heldEntries (ledger : AdmittedLoadLedger) : List LedgerEntry :=
  ledger.byDecision.toList.flatMap Prod.snd

/-- The order of the entry listing: by resource, then by decision. -/
def entryLe (a b : LedgerEntry) : Prop :=
  a.resource < b.resource ∨ a.resource = b.resource ∧ a.decision ≤ b.decision

instance : DecidableRel entryLe := fun a b => by unfold entryLe; infer_instance

/-- Every entry. -/
def entries (ledger : AdmittedLoadLedger) : List LedgerEntry :=
  ledger.heldEntries.insertionSort entryLe

/-! ### Reservation -/

/-- The loop that validates every addition before anything is changed. -/
def checkAmounts (totals : Std.ExtTreeMap ResourceId Rate) :
    List (ResourceId × Rate) → Except Status Unit
  | [] => .ok ()
  | (resource, amount) :: rest => do
    rejectIf (resource = 0) ⟨.invalidArgument, "reservation names an unknown resource"⟩
    rejectIf (addU64 (totals.getD resource 0) amount = none)
      ⟨.arithmeticOverflow, "admitted load would overflow for resource "
        ++ toString resource.toNat⟩
    checkAmounts totals rest

/-- Add every amount to the total of its resource. -/
def addLoad (totals : Std.ExtTreeMap ResourceId Rate) (amounts : List (ResourceId × Rate)) :
    Std.ExtTreeMap ResourceId Rate :=
  amounts.foldl (fun t a => t.insert a.1 (t.getD a.1 0 + a.2)) totals

/-- Subtract an amount from the total of a key; a total that reaches zero is erased. -/
def subtract (totals : Std.ExtTreeMap UInt64 Rate) (key : UInt64) (amount : Rate) :
    Std.ExtTreeMap UInt64 Rate :=
  let updated := totals.getD key 0 - amount
  if updated = 0 then totals.erase key else totals.insert key updated

/-- Subtract every amount from the total of its resource. -/
def subLoad (totals : Std.ExtTreeMap ResourceId Rate) (amounts : List (ResourceId × Rate)) :
    Std.ExtTreeMap ResourceId Rate :=
  amounts.foldl (fun t a => subtract t a.1 a.2) totals

/-- The checks made before a reservation changes anything. -/
def checkReserve (ledger : AdmittedLoadLedger) (decision : AdmissionDecisionId)
    (amounts : List (ResourceId × Rate)) : Except Status Unit := do
  rejectIf (decision = 0) ⟨.invalidArgument, "cannot reserve load for an unknown decision id"⟩
  rejectIf (ledger.holds decision) ⟨.alreadyExists, "decision already holds admitted load"⟩
  rejectIf (amounts = []) ⟨.invalidArgument, "refusing to reserve an empty resource set"⟩
  rejectIf (ledger.entryCount + amounts.length > Limits.maxLedgerEntries)
    ⟨.oversizedInput, "admitted load ledger is full"⟩
  checkAmounts ledger.totals amounts

/-- The entries that a reservation creates. -/
def newEntries (decision : AdmissionDecisionId) (demand : DemandId) (epoch : FabricEpoch)
    (boundCapacityGeneration : Generation) (path : PathId) (amounts : List (ResourceId × Rate)) :
    List LedgerEntry :=
  amounts.map fun a =>
    { decision, demand, resource := a.1, amount := a.2, path, epoch, boundCapacityGeneration }

/-- The total of the path after one more grant, or nothing when it does not fit. The grant is
the amount of the first resource. -/
def addPath (ledger : AdmittedLoadLedger) (path : PathId) (amounts : List (ResourceId × Rate)) :
    Option (Std.ExtTreeMap PathId Rate) :=
  if path = 0 then some ledger.pathTotals
  else (addU64 (ledger.pathTotals.getD path 0) ((amounts.head?.map Prod.snd).getD 0)).map
    fun updated => ledger.pathTotals.insert path updated

/-- Reserve load for one decision. When the total of the path would overflow, the resource
totals have already been raised and are lowered again, which erases those that return to zero. -/
def reserve (ledger : AdmittedLoadLedger) (decision : AdmissionDecisionId) (demand : DemandId)
    (epoch : FabricEpoch) (boundCapacityGeneration : Generation) (path : PathId)
    (amounts : List (ResourceId × Rate)) : Except Status Unit × AdmittedLoadLedger :=
  match ledger.checkReserve decision amounts with
  | .error status => (.error status, ledger)
  | .ok () =>
    let totals := addLoad ledger.totals amounts
    match ledger.addPath path amounts with
    | none =>
      (.error ⟨.arithmeticOverflow, "admitted load on the path would overflow"⟩,
        { ledger with totals := subLoad totals amounts })
    | some pathTotals =>
      (.ok (), {
        totals
        pathTotals
        byDecision := ledger.byDecision.insert decision
          (newEntries decision demand epoch boundCapacityGeneration path amounts)
        entryCount := ledger.entryCount + amounts.length })

/-! ### Release -/

/-- The loop that validates every subtraction before anything is changed. -/
def checkTotals (totals : Std.ExtTreeMap ResourceId Rate) : List LedgerEntry → Except Status Unit
  | [] => .ok ()
  | entry :: rest => do
    rejectIf (totals[entry.resource]?.all (· < entry.amount))
      ⟨.arithmeticUnderflow, "admitted load accounting would go negative for resource "
        ++ toString entry.resource.toNat⟩
    checkTotals totals rest

/-- The path totals after a decision with these entries is removed: the sum over all of its
entries is subtracted, with wrap-around, if the path has a total. -/
def subPath (pathTotals : Std.ExtTreeMap PathId Rate) (entries : List LedgerEntry) :
    Std.ExtTreeMap PathId Rate :=
  match entries.head? with
  | none => pathTotals
  | some front =>
    if front.path = 0 then pathTotals
    else if pathTotals[front.path]? = none then pathTotals
    else subtract pathTotals front.path
      ((({} : SumLatch).addAll (entries.map (·.amount))).saturatedTotal)

/-- The ledger without the entries of one decision. -/
def without (ledger : AdmittedLoadLedger) (decision : AdmissionDecisionId)
    (entries : List LedgerEntry) : AdmittedLoadLedger where
  totals := subLoad ledger.totals (entries.map fun e => (e.resource, e.amount))
  pathTotals := subPath ledger.pathTotals entries
  byDecision := ledger.byDecision.erase decision
  entryCount := ledger.entryCount - entries.length

/-- Take entries off the totals. -/
def remove (ledger : AdmittedLoadLedger) (decision : AdmissionDecisionId) :
    Except Status (List LedgerEntry × AdmittedLoadLedger) :=
  match ledger.byDecision[decision]? with
  | none => .error ⟨.notFound, "decision holds no admitted load"⟩
  | some entries => do
    checkTotals ledger.totals entries
    .ok (entries, ledger.without decision entries)

/-- Remove all load held by a decision. A refused release changes nothing. -/
def release (ledger : AdmittedLoadLedger) (decision : AdmissionDecisionId) :
    Except Status (List LedgerEntry × AdmittedLoadLedger) :=
  if decision = 0 then .error ⟨.invalidArgument, "cannot release an unknown decision id"⟩
  else ledger.remove decision

/-! ### Revalidation flags -/

/-- Set the revalidation flag of every entry. -/
def setFlags (ledger : AdmittedLoadLedger) (flag : Bool) : AdmittedLoadLedger :=
  { ledger with
    byDecision := ledger.byDecision.map fun _ entries =>
      entries.map fun entry => { entry with requiresRevalidation := flag } }

/-- Flag all load. -/
def markAllRequiringRevalidation (ledger : AdmittedLoadLedger) : AdmittedLoadLedger :=
  ledger.setFlags true

/-- Clear the flags. -/
def clearRevalidationFlags (ledger : AdmittedLoadLedger) : AdmittedLoadLedger :=
  ledger.setFlags false

end AdmittedLoadLedger

end AdmissionFabric
