import AdmissionFabric.Engine.LedgerAccounting
import AdmissionFabric.Library.Run

/-!
# The representation of the ledger

Over any sequence of reservations, each naming distinct resources, and releases, the total of a
resource is the sum of the held amounts as natural numbers, the entries are counted, the listing
has every held entry once, and a call that is refused can not be observed.

A reservation that fails late, because the total of its path does not fit, has already raised the
totals of its resources. Lowering them again may erase a total of zero that was there before. The
queries for loads, entries and decisions do not tell the two apart, but the list of resources and a
release do: a release refuses when the total of a resource is absent.
-/

namespace AdmissionFabric

/-- A call that changes a ledger. -/
inductive LedgerCall
  | reserve (decision : AdmissionDecisionId) (demand : DemandId) (epoch : FabricEpoch)
      (boundCapacityGeneration : Generation) (path : PathId) (amounts : List (ResourceId × Rate))
  | release (decision : AdmissionDecisionId)

/-- A reservation names distinct resources. -/
def LedgerCall.Distinct : LedgerCall → Prop
  | .reserve _ _ _ _ _ amounts => (amounts.map Prod.fst).Nodup
  | .release _ => True

namespace AdmittedLoadLedger

variable {status : Status}

/-- Perform a call: its status, and the ledger after it. -/
def call (ledger : AdmittedLoadLedger) : LedgerCall → Except Status Unit × AdmittedLoadLedger
  | .reserve decision demand epoch generation path amounts =>
    ledger.reserve decision demand epoch generation path amounts
  | .release decision =>
    match ledger.release decision with
    | .ok (_, ledger) => (.ok (), ledger)
    | .error status => (.error status, ledger)

/-- Two ledgers that answer these queries alike; `resources`, the list of the resources that have a
total, may still tell them apart. -/
structure SameView (ledger ledger' : AdmittedLoadLedger) : Prop where
  holds : ∀ d, ledger'.holds d = ledger.holds d
  entries : ledger'.entries = ledger.entries
  admitted : ∀ r, ledger'.admitted r = ledger.admitted r
  admittedOnPath : ∀ p, ledger'.admittedOnPath p = ledger.admittedOnPath p

variable {ledger : AdmittedLoadLedger}

theorem SameView.refl (ledger : AdmittedLoadLedger) : SameView ledger ledger :=
  ⟨fun _ => rfl, rfl, fun _ => rfl, fun _ => rfl⟩

/-! ### One call -/

theorem WellFormed.call (h : ledger.WellFormed) {c : LedgerCall} (hdistinct : c.Distinct) :
    (ledger.call c).2.WellFormed := by
  cases c with
  | reserve d demand epoch generation path amounts =>
    exact h.reserve d demand epoch generation path hdistinct
  | release d =>
    rw [AdmittedLoadLedger.call]
    split
    · rename_i hrelease
      exact h.release hrelease
    · exact h

theorem sameView_of_reserve_error {ledger' : AdmittedLoadLedger} {d : AdmissionDecisionId}
    {demand : DemandId} {epoch : FabricEpoch} {generation : Generation} {path : PathId}
    {amounts : List (ResourceId × Rate)} (hnodup : (amounts.map Prod.fst).Nodup)
    (h : ledger.reserve d demand epoch generation path amounts = (.error status, ledger')) :
    SameView ledger ledger' := by
  obtain ⟨hby, hpath, -, hadmitted⟩ := reserve_of_error hnodup h
  refine ⟨fun d' => by rw [holds, holds, hby], ?_, hadmitted, fun p => ?_⟩
  · rw [entries, entries, heldEntries, heldEntries, hby]
  · rw [admittedOnPath, admittedOnPath, hpath]

theorem sameView_of_error {c : LedgerCall} (hdistinct : c.Distinct)
    (h : (ledger.call c).1 = .error status) : SameView ledger (ledger.call c).2 := by
  cases c with
  | reserve d demand epoch generation path amounts =>
    exact sameView_of_reserve_error hdistinct (Prod.ext h rfl)
  | release d =>
    rw [call] at h ⊢
    split at h
    · cases h
    · exact .refl ledger

/-! ### The listing -/

instance : Std.Total entryLe where
  total a b := by
    by_cases h : a.resource = b.resource
    · exact (Nat.le_total a.decision b.decision).imp (fun hle => Or.inr ⟨h, hle⟩)
        fun hle => Or.inr ⟨h.symm, hle⟩
    · exact (UInt64.lt_or_lt_of_ne h).imp Or.inl Or.inl

instance : IsTrans LedgerEntry entryLe where
  trans a b c := by
    rintro (hab | ⟨hab, hle⟩) (hbc | ⟨hbc, hle'⟩)
    · exact Or.inl (UInt64.lt_trans hab hbc)
    · exact Or.inl (hbc ▸ hab)
    · exact Or.inl (hab ▸ hbc)
    · exact Or.inr ⟨hab.trans hbc, Nat.le_trans hle hle'⟩

theorem WellFormed.pairwise_heldEntries (h : ledger.WellFormed) :
    ledger.heldEntries.Pairwise fun a b =>
      ¬ (a.resource = b.resource ∧ a.decision = b.decision) := by
  rw [heldEntries, List.pairwise_flatMap]
  constructor
  · rintro ⟨d, es⟩ hmem
    have hd := Std.ExtTreeMap.mem_toList_iff_getElem?_eq_some.mp hmem
    refine (List.pairwise_map.mp (h.nodup d es hd)).imp fun hne heq => hne heq.1
  · -- entries of two decisions have different labels
    refine List.Pairwise.imp_of_mem ?_
      (Std.ExtTreeMap.distinct_keys_toList (t := ledger.byDecision))
    rintro ⟨d, es⟩ ⟨d', es'⟩ hmem hmem' hne a ha b hb heq
    have hd := h.decision_eq d es (Std.ExtTreeMap.mem_toList_iff_getElem?_eq_some.mp hmem) a ha
    have hd' := h.decision_eq d' es' (Std.ExtTreeMap.mem_toList_iff_getElem?_eq_some.mp hmem') b hb
    exact hne (Std.compare_eq_iff_eq.mpr (hd.symm.trans (heq.2.trans hd')))

theorem WellFormed.pairwise_entries (h : ledger.WellFormed) :
    ledger.entries.Pairwise fun a b =>
      a.resource < b.resource ∨ a.resource = b.resource ∧ a.decision < b.decision := by
  have hsorted : ledger.entries.Pairwise entryLe := List.pairwise_insertionSort entryLe _
  have hperm : ledger.entries.Perm ledger.heldEntries := List.perm_insertionSort entryLe _
  have hdistinct := hperm.symm.pairwise h.pairwise_heldEntries fun hne heq =>
    hne ⟨heq.1.symm, heq.2.symm⟩
  refine hsorted.imp₂ (fun a b hle hne => ?_) hdistinct
  rcases hle with hlt | ⟨heq, hle⟩
  · exact Or.inl hlt
  · exact Or.inr ⟨heq, Nat.lt_of_le_of_ne hle fun hd => hne ⟨heq, hd⟩⟩

/-! ### Runs -/

open TransitionSystem (Reachable)

/-- The representation of a ledger after any sequence of calls. -/
theorem representation_of_reachable
    (h : Reachable (· = ({} : AdmittedLoadLedger)) (fun ledger c => (ledger.call c).2)
      (fun _ c => c.Distinct) ledger) :
    (∀ r, (ledger.admitted r).toNat = loadOn ledger.heldEntries r) ∧
      ledger.entryCount = ledger.heldEntries.length ∧
      ledger.entries.Perm ledger.heldEntries ∧
      (ledger.entries.Pairwise fun a b =>
        a.resource < b.resource ∨ a.resource = b.resource ∧ a.decision < b.decision) ∧
      ∀ c : LedgerCall, c.Distinct → ∀ status, (ledger.call c).1 = .error status →
        SameView ledger (ledger.call c).2 := by
  have hwf : ledger.WellFormed := h.invariant (fun _ hempty => hempty ▸ WellFormed.empty)
    fun _ _ hwf hdistinct => hwf.call hdistinct
  exact ⟨hwf.admitted_eq, hwf.entryCount_eq, List.perm_insertionSort entryLe _,
    hwf.pairwise_entries, fun _ hdistinct _ => sameView_of_error hdistinct⟩

/-- Two reservations, the second of them near the largest total, and a release. -/
def nearLimit : List LedgerCall :=
  [.reserve 1 1 1 1 7 [(1, 5), (2, 5)], .reserve 2 2 1 1 7 [(2, 18446744073709551610)],
    .release 1]

theorem representation_nearLimit :
    let ledger := TransitionSystem.run (fun ledger c => (AdmittedLoadLedger.call ledger c).2) {}
      nearLimit
    (ledger.admitted 2).toNat = loadOn ledger.heldEntries 2 ∧
      (ledger.admitted 2).toNat = 18446744073709551610 := by
  have hstart : Reachable (· = ({} : AdmittedLoadLedger)) (fun ledger c => (ledger.call c).2)
      (fun _ c => LedgerCall.Distinct c) {} := .init rfl
  have hallowed : TransitionSystem.Allowed (fun ledger c => (AdmittedLoadLedger.call ledger c).2)
      (fun _ c => LedgerCall.Distinct c) {} nearLimit :=
    ⟨List.nodup_cons.mpr ⟨by decide, by decide⟩, List.nodup_singleton _, trivial, trivial⟩
  exact ⟨(representation_of_reachable (hstart.run hallowed)).1 2, by decide +kernel⟩

end AdmittedLoadLedger

end AdmissionFabric
