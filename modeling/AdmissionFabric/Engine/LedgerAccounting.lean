import AdmissionFabric.Engine.Ledger

/-!
# Exact accounting of the admitted load ledger

A well-formed ledger keeps, for each resource, exactly the sum of the held amounts: its 64-bit
totals never wrap. Reservations that name distinct resources and releases keep a ledger well
formed, whether they succeed or are refused.
-/

namespace AdmissionFabric

namespace AdmittedLoadLedger

open Std (ExtTreeMap)

variable {resource : ResourceId} {generation : Generation} {path : PathId}
    {targets : List ResourceId} {epoch : FabricEpoch} {e : LedgerEntry}
    {totals : ExtTreeMap ResourceId Rate} {d' : AdmissionDecisionId}

theorem holds_of_getElem? {ledger : AdmittedLoadLedger} {d : AdmissionDecisionId}
    {es : List LedgerEntry} (h : ledger.byDecision[d]? = some es) : ledger.holds d = true := by
  rw [holds, h, Option.isSome_some]

theorem held_of_getElem? {ledger : AdmittedLoadLedger} {d : AdmissionDecisionId}
    {es : List LedgerEntry} (h : ledger.byDecision[d]? = some es) : ledger.held d = es := by
  rw [held, Std.ExtTreeMap.getD_eq_getD_getElem?, h]
  rfl

theorem held_congr {ledger ledger' : AdmittedLoadLedger} {d : AdmissionDecisionId}
    (h : ledger'.byDecision[d]? = ledger.byDecision[d]?) : ledger'.held d = ledger.held d := by
  simp only [held, Std.ExtTreeMap.getD_eq_getD_getElem?, h]

/-! ### Load on a resource -/

/-- The load that a list of entries puts on a resource, as a natural number. -/
def loadOn (entries : List LedgerEntry) (resource : ResourceId) : Nat :=
  ((entries.filter (·.resource = resource)).map (·.amount.toNat)).sum

@[simp] theorem loadOn_nil (resource : ResourceId) : loadOn [] resource = 0 := rfl

theorem loadOn_cons (e : LedgerEntry) (es : List LedgerEntry) (resource : ResourceId) :
    loadOn (e :: es) resource =
      (if e.resource = resource then e.amount.toNat else 0) + loadOn es resource := by
  by_cases h : e.resource = resource <;> simp [loadOn, h]

@[simp] theorem loadOn_append (es es' : List LedgerEntry) (resource : ResourceId) :
    loadOn (es ++ es') resource = loadOn es resource + loadOn es' resource := by
  simp [loadOn]

theorem loadOn_perm {es es' : List LedgerEntry} (h : es.Perm es') (resource : ResourceId) :
    loadOn es resource = loadOn es' resource :=
  ((h.filter _).map _).sum_nat

theorem amount_le_loadOn {es : List LedgerEntry} (h : e ∈ es) :
    e.amount.toNat ≤ loadOn es e.resource := by
  induction es with
  | nil => simp at h
  | cons x xs ih =>
    rw [loadOn_cons]
    rcases List.mem_cons.mp h with rfl | hmem
    · simp
    · exact (ih hmem).trans (Nat.le_add_left _ _)

theorem loadOn_eq_zero {es : List LedgerEntry} (h : ∀ e ∈ es, e.resource ≠ resource) :
    loadOn es resource = 0 := by
  have hnil : es.filter (·.resource = resource) = [] := by
    simpa [List.filter_eq_nil_iff] using h
  simp [loadOn, hnil]

theorem loadOn_eq_of_nodup {es : List LedgerEntry} (hnodup : (es.map (·.resource)).Nodup)
    (he : e ∈ es) : loadOn es e.resource = e.amount.toNat := by
  induction es with
  | nil => simp at he
  | cons x xs ih =>
    simp only [List.map_cons, List.nodup_cons, List.mem_map, not_exists, not_and] at hnodup
    rw [loadOn_cons]
    rcases List.mem_cons.mp he with rfl | hmem
    · rw [loadOn_eq_zero fun y hy => hnodup.1 y hy]
      simp
    · rw [ih hnodup.2 hmem, if_neg fun h => hnodup.1 e hmem h.symm, Nat.zero_add]

/-! ### Totals under addition and subtraction -/

/-- The sum of the amounts that a list names for a resource. -/
def amountOn (amounts : List (ResourceId × Rate)) (resource : ResourceId) : Nat :=
  ((amounts.filter (·.1 = resource)).map (·.2.toNat)).sum

theorem amountOn_cons (a : ResourceId × Rate) (as : List (ResourceId × Rate))
    (resource : ResourceId) :
    amountOn (a :: as) resource =
      (if a.1 = resource then a.2.toNat else 0) + amountOn as resource := by
  by_cases h : a.1 = resource <;> simp [amountOn, h]

theorem amountOn_const (hnodup : targets.Nodup) (rate : Rate) (resource : ResourceId) :
    amountOn (targets.map fun target => (target, rate)) resource =
      if resource ∈ targets then rate.toNat else 0 := by
  induction targets with
  | nil => simp [amountOn]
  | cons target rest ih =>
    obtain ⟨hnot, hrest⟩ := List.nodup_cons.mp hnodup
    rw [List.map_cons, amountOn_cons, ih hrest]
    by_cases htarget : target = resource
    · subst htarget
      simp [hnot]
    · simp [htarget, Ne.symm htarget]

theorem amountOn_map (es : List LedgerEntry) (resource : ResourceId) :
    amountOn (es.map fun e => (e.resource, e.amount)) resource = loadOn es resource := by
  simp only [amountOn, loadOn, List.filter_map, List.map_map, Function.comp_def]

theorem getD_insert_ite (totals : ExtTreeMap UInt64 Rate) (k r : UInt64) (v : Rate) :
    (totals.insert k v).getD r 0 = if k = r then v else totals.getD r 0 := by
  simp [ExtTreeMap.getD_insert]

theorem toNat_addLoad {amounts : List (ResourceId × Rate)}
    (hnodup : (amounts.map Prod.fst).Nodup)
    (hfit : ∀ a ∈ amounts, (totals.getD a.1 0).toNat + a.2.toNat < 2 ^ 64) (r : ResourceId) :
    ((addLoad totals amounts).getD r 0).toNat =
      (totals.getD r 0).toNat + amountOn amounts r := by
  induction amounts generalizing totals with
  | nil => simp [addLoad, amountOn]
  | cons a as ih =>
    obtain ⟨hnot, hnodup⟩ := List.nodup_cons.mp hnodup
    have hhead : (totals.getD a.1 0 + a.2).toNat = (totals.getD a.1 0).toNat + a.2.toNat := by
      rw [UInt64.toNat_add, Nat.mod_eq_of_lt (hfit a (by simp))]
    have hrest : ∀ b ∈ as, ((totals.insert a.1 (totals.getD a.1 0 + a.2)).getD b.1 0).toNat +
        b.2.toNat < 2 ^ 64 := by
      intro b hb
      have hne : a.1 ≠ b.1 := fun h => hnot (h ▸ List.mem_map_of_mem hb)
      rw [getD_insert_ite, if_neg hne]
      exact hfit b (List.mem_cons_of_mem _ hb)
    have hstep := ih hnodup hrest
    rw [addLoad, List.foldl_cons, ← addLoad, hstep, amountOn_cons, getD_insert_ite]
    split
    · rename_i h
      subst h
      rw [hhead, Nat.add_assoc]
    · rw [Nat.zero_add]

theorem getD_subtract (totals : ExtTreeMap UInt64 Rate) (k r : UInt64) (amount : Rate) :
    (subtract totals k amount).getD r 0 =
      if k = r then totals.getD k 0 - amount else totals.getD r 0 := by
  simp only [subtract]
  by_cases hzero : totals.getD k 0 - amount = 0
  · simp [hzero, ExtTreeMap.getD_erase]
  · simp [hzero, getD_insert_ite]

theorem toNat_subLoad {amounts : List (ResourceId × Rate)}
    (hnodup : (amounts.map Prod.fst).Nodup) (hcover : ∀ a ∈ amounts, a.2 ≤ totals.getD a.1 0)
    (r : ResourceId) :
    ((subLoad totals amounts).getD r 0).toNat + amountOn amounts r =
      (totals.getD r 0).toNat := by
  induction amounts generalizing totals with
  | nil => simp [subLoad, amountOn]
  | cons a as ih =>
    obtain ⟨hnot, hnodup⟩ := List.nodup_cons.mp hnodup
    have hhead := UInt64.toNat_sub_of_le _ _ (hcover a (by simp))
    have hle := UInt64.le_iff_toNat_le.mp (hcover a (by simp))
    have hrest : ∀ b ∈ as, b.2 ≤ (subtract totals a.1 a.2).getD b.1 0 := by
      intro b hb
      have hne : a.1 ≠ b.1 := fun h => hnot (h ▸ List.mem_map_of_mem hb)
      rw [getD_subtract, if_neg hne]
      exact hcover b (List.mem_cons_of_mem _ hb)
    have hstep := ih hnodup hrest
    rw [getD_subtract] at hstep
    rw [subLoad, List.foldl_cons, ← subLoad, amountOn_cons]
    split at hstep
    · rename_i h
      subst h
      simp only [↓reduceIte]
      omega
    · rename_i h
      simp only [h, ↓reduceIte]
      omega

theorem le_amountOn {amounts : List (ResourceId × Rate)} {a : ResourceId × Rate}
    (h : a ∈ amounts) : a.2.toNat ≤ amountOn amounts a.1 := by
  induction amounts with
  | nil => simp at h
  | cons x xs ih =>
    rw [amountOn_cons]
    rcases List.mem_cons.mp h with rfl | hmem
    · simp
    · exact (ih hmem).trans (Nat.le_add_left _ _)

theorem le_getD_addLoad {amounts : List (ResourceId × Rate)}
    (hnodup : (amounts.map Prod.fst).Nodup)
    (hfit : ∀ a ∈ amounts, (totals.getD a.1 0).toNat + a.2.toNat < 2 ^ 64)
    {a : ResourceId × Rate} (ha : a ∈ amounts) : a.2 ≤ (addLoad totals amounts).getD a.1 0 := by
  have hle := le_amountOn ha
  rw [UInt64.le_iff_toNat_le, toNat_addLoad hnodup hfit]
  omega

theorem getD_subLoad_addLoad {amounts : List (ResourceId × Rate)}
    (hnodup : (amounts.map Prod.fst).Nodup)
    (hfit : ∀ a ∈ amounts, (totals.getD a.1 0).toNat + a.2.toNat < 2 ^ 64) (r : ResourceId) :
    (subLoad (addLoad totals amounts) amounts).getD r 0 = totals.getD r 0 := by
  have hsub := toNat_subLoad hnodup (fun a ha => le_getD_addLoad hnodup hfit ha) r
  rw [toNat_addLoad hnodup hfit] at hsub
  exact UInt64.toNat_inj.mp (Nat.add_right_cancel hsub)

theorem mem_addLoad {amounts : List (ResourceId × Rate)}
    (totals : ExtTreeMap ResourceId Rate) {r : ResourceId}
    (h : r ∈ amounts.map Prod.fst ∨ r ∈ totals) : r ∈ addLoad totals amounts := by
  induction amounts generalizing totals with
  | nil => simpa [addLoad] using h
  | cons a as ih =>
    refine ih _ ?_
    rcases h with h | h
    · rcases List.mem_cons.mp h with rfl | h
      · exact Or.inr (by simp)
      · exact Or.inl h
    · exact Or.inr (by simp [h])

/-! ### Held entries -/

theorem mem_heldEntries {ledger : AdmittedLoadLedger} :
    e ∈ ledger.heldEntries ↔
      ∃ (d : AdmissionDecisionId) (es : List LedgerEntry),
        ledger.byDecision[d]? = some es ∧ e ∈ es := by
  simp only [heldEntries, List.mem_flatMap, Prod.exists,
    ExtTreeMap.mem_toList_iff_getElem?_eq_some]

theorem mem_entries {ledger : AdmittedLoadLedger} : e ∈ ledger.entries ↔ e ∈ ledger.heldEntries :=
  List.mem_insertionSort entryLe

/-! ### The invariant -/

/-- Every entry names the decision that holds it. -/
def Labelled (ledger : AdmittedLoadLedger) : Prop :=
  ∀ (d : AdmissionDecisionId) (es : List LedgerEntry),
    ledger.byDecision[d]? = some es → ∀ e ∈ es, e.decision = d

/-- Decisions hold entries of their own on distinct resources, which the totals sum up. -/
structure WellFormed (ledger : AdmittedLoadLedger) : Prop where
  ne_nil : ∀ (d : AdmissionDecisionId) (es : List LedgerEntry),
    ledger.byDecision[d]? = some es → es ≠ []
  decision_eq : ∀ (d : AdmissionDecisionId) (es : List LedgerEntry),
    ledger.byDecision[d]? = some es → ∀ e ∈ es, e.decision = d
  nodup : ∀ (d : AdmissionDecisionId) (es : List LedgerEntry),
    ledger.byDecision[d]? = some es → (es.map (·.resource)).Nodup
  admitted_eq : ∀ r, (ledger.admitted r).toNat = loadOn ledger.heldEntries r
  entryCount_eq : ledger.entryCount = ledger.heldEntries.length

theorem WellFormed.empty : ({} : AdmittedLoadLedger).WellFormed where
  ne_nil d es h := by simp at h
  decision_eq d es h := by simp at h
  nodup d es h := by simp at h
  admitted_eq r := by simp [admitted, heldEntries, loadOn]
  entryCount_eq := by simp [heldEntries]

theorem holds_eq_true_iff {ledger : AdmittedLoadLedger} {d : AdmissionDecisionId} :
    ledger.holds d = true ↔ ∃ es, ledger.byDecision[d]? = some es :=
  Option.isSome_iff_exists

theorem holds_eq_false_iff {ledger : AdmittedLoadLedger} {d : AdmissionDecisionId} :
    ledger.holds d = false ↔ ledger.byDecision[d]? = none := by
  rw [holds, Option.isSome_eq_false_iff, Option.isNone_iff_eq_none]

namespace WellFormed

variable {ledger : AdmittedLoadLedger}

theorem amount_le_admitted (hwf : ledger.WellFormed) (he : e ∈ ledger.heldEntries) :
    e.amount ≤ ledger.admitted e.resource := by
  rw [UInt64.le_iff_toNat_le, hwf.admitted_eq]
  exact amount_le_loadOn he

theorem holds_decision (hwf : ledger.WellFormed) (he : e ∈ ledger.heldEntries) :
    ∃ es, ledger.byDecision[e.decision]? = some es ∧ e ∈ es := by
  obtain ⟨d, es, hd, hmem⟩ := mem_heldEntries.mp he
  exact ⟨es, hwf.decision_eq d es hd e hmem ▸ hd, hmem⟩

theorem mem_filter_entries (hwf : ledger.WellFormed) {d : AdmissionDecisionId} :
    e ∈ ledger.entries.filter (·.decision = d) ↔
      ∃ es, ledger.byDecision[d]? = some es ∧ e ∈ es := by
  simp only [List.mem_filter, mem_entries, decide_eq_true_eq]
  constructor
  · rintro ⟨he, rfl⟩
    exact hwf.holds_decision he
  · rintro ⟨es, hd, he⟩
    exact ⟨mem_heldEntries.mpr ⟨d, es, hd, he⟩, hwf.decision_eq d es hd e he⟩

end WellFormed

/-! ### Reservation -/

theorem checkAmounts_eq_ok_iff {amounts : List (ResourceId × Rate)} :
    checkAmounts totals amounts = .ok () ↔
      ∀ a ∈ amounts, a.1 ≠ 0 ∧ (totals.getD a.1 0).toNat + a.2.toNat < 2 ^ 64 := by
  induction amounts with
  | nil => simp [checkAmounts]
  | cons a as ih =>
    simp only [checkAmounts, check_bind_eq_ok_iff, rejectIf_eq_ok_iff, addU64_eq_none_iff, ih,
      Nat.not_le, List.mem_cons, forall_eq_or_imp, and_assoc]

theorem checkReserve_eq_ok_iff {ledger : AdmittedLoadLedger} {d : AdmissionDecisionId}
    {amounts : List (ResourceId × Rate)} :
    ledger.checkReserve d amounts = .ok () ↔
      d ≠ 0 ∧ ledger.byDecision[d]? = none ∧ amounts ≠ [] ∧
        ledger.entryCount + amounts.length ≤ Limits.maxLedgerEntries ∧
        ∀ a ∈ amounts, a.1 ≠ 0 ∧ (ledger.admitted a.1).toNat + a.2.toNat < 2 ^ 64 := by
  simp only [checkReserve, check_bind_eq_ok_iff, rejectIf_eq_ok_iff, checkAmounts_eq_ok_iff,
    Bool.not_eq_true, holds_eq_false_iff, Nat.not_lt, GT.gt, admitted, ne_eq]

/-- The ledger after a reservation whose path total is `pathTotals`. -/
def withReservation (ledger : AdmittedLoadLedger) (decision : AdmissionDecisionId)
    (entries : List LedgerEntry) (pathTotals : ExtTreeMap PathId Rate) : AdmittedLoadLedger where
  totals := addLoad ledger.totals (entries.map fun e => (e.resource, e.amount))
  pathTotals := pathTotals
  byDecision := ledger.byDecision.insert decision entries
  entryCount := ledger.entryCount + entries.length

theorem heldEntries_withReservation_perm {ledger : AdmittedLoadLedger} {d : AdmissionDecisionId}
    (hd : ledger.byDecision[d]? = none) (es : List LedgerEntry)
    (pathTotals : ExtTreeMap PathId Rate) :
    (ledger.withReservation d es pathTotals).heldEntries.Perm (es ++ ledger.heldEntries) := by
  simpa [heldEntries, withReservation]
    using (OrderedMap.toList_insert_perm _ hd).flatMap_right Prod.snd

@[simp] theorem held_withReservation (ledger : AdmittedLoadLedger) (d : AdmissionDecisionId)
    (es : List LedgerEntry) (pathTotals : ExtTreeMap PathId Rate) :
    (ledger.withReservation d es pathTotals).held d = es := by
  simp [held, withReservation]

section Reserve

variable {result : Except Status Unit} {ledger ledger' : AdmittedLoadLedger}
    {d : AdmissionDecisionId} {demand : DemandId} {epoch : FabricEpoch} {generation : Generation}
    {path : PathId} {amounts : List (ResourceId × Rate)}

theorem map_newEntries :
    (newEntries d demand epoch generation path amounts).map (fun e => (e.resource, e.amount)) =
      amounts := by
  simp [newEntries, Function.comp_def]

theorem length_newEntries :
    (newEntries d demand epoch generation path amounts).length = amounts.length := by
  simp [newEntries]

theorem reserve_eq_ok_iff :
    ledger.reserve d demand epoch generation path amounts = (.ok (), ledger') ↔
      ledger.checkReserve d amounts = .ok () ∧ ∃ pathTotals,
        ledger.addPath path amounts = some pathTotals ∧
        ledger' = ledger.withReservation d
          (newEntries d demand epoch generation path amounts) pathTotals := by
  unfold reserve
  cases hcheck : ledger.checkReserve d amounts with
  | error s => simp
  | ok u =>
    cases hpath : ledger.addPath path amounts with
    | none => simp
    | some pathTotals =>
      simp [withReservation, map_newEntries, length_newEntries, eq_comm]

theorem reserve_of_error {s : Status}
    (hnodup : (amounts.map Prod.fst).Nodup)
    (h : ledger.reserve d demand epoch generation path amounts = (.error s, ledger')) :
    ledger'.byDecision = ledger.byDecision ∧ ledger'.pathTotals = ledger.pathTotals ∧
      ledger'.entryCount = ledger.entryCount ∧ ∀ r, ledger'.admitted r = ledger.admitted r := by
  unfold reserve at h
  cases hcheck : ledger.checkReserve d amounts with
  | error s' =>
    simp only [hcheck, Prod.mk.injEq] at h
    obtain ⟨-, rfl⟩ := h
    exact ⟨rfl, rfl, rfl, fun _ => rfl⟩
  | ok u =>
    obtain ⟨-, -, -, -, hfit⟩ := checkReserve_eq_ok_iff.mp hcheck
    cases hpath : ledger.addPath path amounts with
    | some pathTotals => simp [hcheck, hpath] at h
    | none =>
      simp only [hcheck, hpath, Prod.mk.injEq] at h
      obtain ⟨-, rfl⟩ := h
      exact ⟨rfl, rfl, rfl, getD_subLoad_addLoad hnodup fun a ha => (hfit a ha).2⟩

theorem byDecision_of_reserve
    (h : ledger.reserve d demand epoch generation path amounts = (result, ledger')) :
    ledger'.byDecision = ledger.byDecision ∨ result = .ok () ∧ ledger.byDecision[d]? = none ∧
      ledger'.byDecision = ledger.byDecision.insert d
        (newEntries d demand epoch generation path amounts) := by
  rcases result with s | ⟨⟩
  · left
    unfold reserve at h
    split at h
    · rw [← (Prod.mk.inj h).2]
    · simp only at h
      split at h
      · rw [← (Prod.mk.inj h).2]
      · cases h
  · obtain ⟨hcheck, pathTotals, -, rfl⟩ := reserve_eq_ok_iff.mp h
    exact Or.inr ⟨rfl, (checkReserve_eq_ok_iff.mp hcheck).2.1, rfl⟩

theorem holds_reserve (hholds : ledger.holds d' = true) :
    (ledger.reserve d demand epoch generation path amounts).2.holds d' = true := by
  cases hreserve : ledger.reserve d demand epoch generation path amounts with
  | mk result ledger' =>
    rcases byDecision_of_reserve hreserve with hby | ⟨-, -, hby⟩
    · rwa [holds, hby]
    · rw [holds, hby, Std.ExtTreeMap.getElem?_insert]
      split
      · rfl
      · exact hholds

theorem holds_of_reserve_ok
    (h : ledger.reserve d demand epoch generation path amounts = (.ok (), ledger')) :
    ledger'.holds d' = true ↔ d' = d ∨ ledger.holds d' = true := by
  obtain ⟨-, pathTotals, -, rfl⟩ := reserve_eq_ok_iff.mp h
  change (ledger.byDecision.insert d _)[d']?.isSome = true ↔ _
  rw [Std.ExtTreeMap.getElem?_insert]
  by_cases hd : d = d'
  · subst hd
    simp
  · rw [if_neg (by simpa using hd)]
    exact (or_iff_right (Ne.symm hd)).symm

theorem holds_of_reserve
    (h : ledger.reserve d demand epoch generation path amounts = (result, ledger'))
    (hholds : ledger'.holds d' = true) : ledger.holds d' = true ∨ d' = d := by
  rcases byDecision_of_reserve h with hby | ⟨-, -, hby⟩
  · exact Or.inl (by rwa [holds, hby] at hholds)
  · rw [holds, hby, Std.ExtTreeMap.getElem?_insert] at hholds
    split at hholds
    · rename_i heq
      exact Or.inr (Std.compare_eq_iff_eq.mp heq).symm
    · exact Or.inl hholds

end Reserve

theorem toNat_admitted_withReservation {ledger : AdmittedLoadLedger} {d : AdmissionDecisionId}
    {es : List LedgerEntry} {pathTotals : ExtTreeMap PathId Rate}
    (hnodup : (es.map (·.resource)).Nodup)
    (hfit : ∀ e ∈ es, (ledger.admitted e.resource).toNat + e.amount.toNat < 2 ^ 64)
    (r : ResourceId) :
    ((ledger.withReservation d es pathTotals).admitted r).toNat =
      (ledger.admitted r).toNat + loadOn es r := by
  rw [← amountOn_map]
  exact toNat_addLoad (by simpa [Function.comp_def] using hnodup) (by simpa [admitted] using hfit) r

theorem toNat_admitted_of_reserve {ledger ledger' : AdmittedLoadLedger} {d : AdmissionDecisionId}
    {demand : DemandId} {rate : Rate} (hnodup : targets.Nodup)
    (h : ledger.reserve d demand epoch generation path
      (targets.map fun target => (target, rate)) = (.ok (), ledger')) (r : ResourceId) :
    (ledger'.admitted r).toNat =
      (ledger.admitted r).toNat + if r ∈ targets then rate.toNat else 0 := by
  obtain ⟨hcheck, pathTotals, -, rfl⟩ := reserve_eq_ok_iff.mp h
  have hfit := (checkReserve_eq_ok_iff.mp hcheck).2.2.2.2
  rw [← amountOn_const hnodup]
  simp only [admitted, withReservation, map_newEntries]
  exact toNat_addLoad (by simpa [Function.comp_def] using hnodup) (fun a ha => (hfit a ha).2) r

theorem WellFormed.withReservation {ledger : AdmittedLoadLedger} (hwf : ledger.WellFormed)
    {d : AdmissionDecisionId} (hd : ledger.byDecision[d]? = none) {es : List LedgerEntry}
    (hne : es ≠ []) (hdec : ∀ e ∈ es, e.decision = d) (hnodup : (es.map (·.resource)).Nodup)
    (hfit : ∀ e ∈ es, (ledger.admitted e.resource).toNat + e.amount.toNat < 2 ^ 64)
    (pathTotals : ExtTreeMap PathId Rate) :
    (ledger.withReservation d es pathTotals).WellFormed := by
  have hlook : ∀ (d' : AdmissionDecisionId) (es' : List LedgerEntry),
      (ledger.withReservation d es pathTotals).byDecision[d']? = some es' →
      (d' = d ∧ es' = es) ∨ ledger.byDecision[d']? = some es' := by
    intro d' es' h
    simp only [AdmittedLoadLedger.withReservation, ExtTreeMap.getElem?_insert,
      Std.compare_eq_iff_eq] at h
    split at h
    · rename_i heq
      exact Or.inl ⟨heq.symm, (Option.some.inj h).symm⟩
    · exact Or.inr h
  have hperm := heldEntries_withReservation_perm hd es pathTotals
  refine ⟨?_, ?_, ?_, fun r => ?_, ?_⟩
  · intro d' es' h
    rcases hlook d' es' h with ⟨-, rfl⟩ | hold
    · exact hne
    · exact hwf.ne_nil d' es' hold
  · intro d' es' h
    rcases hlook d' es' h with ⟨rfl, rfl⟩ | hold
    · exact hdec
    · exact hwf.decision_eq d' es' hold
  · intro d' es' h
    rcases hlook d' es' h with ⟨-, rfl⟩ | hold
    · exact hnodup
    · exact hwf.nodup d' es' hold
  · rw [toNat_admitted_withReservation hnodup hfit r, hwf.admitted_eq]
    rw [loadOn_perm hperm r, loadOn_append, Nat.add_comm]
  · rw [hperm.length_eq, List.length_append, ← hwf.entryCount_eq, Nat.add_comm]
    rfl

theorem WellFormed.reserve {ledger : AdmittedLoadLedger} (hwf : ledger.WellFormed)
    (d : AdmissionDecisionId) (demand : DemandId) (epoch : FabricEpoch) (generation : Generation)
    (path : PathId) {amounts : List (ResourceId × Rate)} (hnodup : (amounts.map Prod.fst).Nodup) :
    (ledger.reserve d demand epoch generation path amounts).2.WellFormed := by
  rcases h : ledger.reserve d demand epoch generation path amounts with ⟨s | u, ledger'⟩
  · obtain ⟨hby, -, hcount, hadm⟩ := reserve_of_error hnodup h
    have hheld : ledger'.heldEntries = ledger.heldEntries := by rw [heldEntries, heldEntries, hby]
    exact ⟨hby ▸ hwf.ne_nil, hby ▸ hwf.decision_eq, hby ▸ hwf.nodup,
      fun r => by rw [hadm, hheld, hwf.admitted_eq], by rw [hcount, hheld, hwf.entryCount_eq]⟩
  · obtain ⟨hcheck, pathTotals, -, rfl⟩ := reserve_eq_ok_iff.mp h
    obtain ⟨-, hd, hne, -, hfit⟩ := checkReserve_eq_ok_iff.mp hcheck
    refine hwf.withReservation hd ?_ ?_ ?_ ?_ pathTotals
    · simpa [newEntries] using hne
    · intro e he
      obtain ⟨a, -, rfl⟩ := List.mem_map.mp he
      rfl
    · simpa [newEntries, Function.comp_def] using hnodup
    · intro e he
      obtain ⟨a, ha, rfl⟩ := List.mem_map.mp he
      exact (hfit a ha).2

/-! ### Release -/

theorem checkTotals_eq_ok_iff {es : List LedgerEntry} :
    checkTotals totals es = .ok () ↔
      ∀ e ∈ es, ∃ total, totals[e.resource]? = some total ∧ e.amount ≤ total := by
  induction es with
  | nil => simp [checkTotals]
  | cons e es ih =>
    have hhead : totals[e.resource]?.all (· < e.amount) = false ↔
        ∃ total, totals[e.resource]? = some total ∧ e.amount ≤ total := by
      cases totals[e.resource]? <;> simp
    simp only [checkTotals, check_bind_eq_ok_iff, rejectIf_eq_ok_iff, ih, List.mem_cons,
      forall_eq_or_imp, Bool.not_eq_true, hhead]

theorem release_eq_ok_iff {ledger ledger' : AdmittedLoadLedger} {d : AdmissionDecisionId}
    {es : List LedgerEntry} :
    ledger.release d = .ok (es, ledger') ↔
      d ≠ 0 ∧ ledger.byDecision[d]? = some es ∧ checkTotals ledger.totals es = .ok () ∧
        ledger' = ledger.without d es := by
  unfold release remove
  by_cases hd : d = 0
  · simp [hd]
  · cases hheld : ledger.byDecision[d]? with
    | none => simp [hd]
    | some es' =>
      simp only [hd, ↓reduceIte, check_bind_eq_ok_iff, Except.ok.injEq, Prod.mk.injEq,
        Option.some.injEq, ne_eq, not_false_eq_true, true_and]
      constructor
      · rintro ⟨hcheck, rfl, rfl⟩
        exact ⟨rfl, hcheck, rfl⟩
      · rintro ⟨rfl, hcheck, rfl⟩
        exact ⟨hcheck, rfl, rfl⟩

section Release

variable {ledger : AdmittedLoadLedger} {d : AdmissionDecisionId} {es : List LedgerEntry}

theorem heldEntries_perm_without (hd : ledger.byDecision[d]? = some es) :
    ledger.heldEntries.Perm (es ++ (ledger.without d es).heldEntries) := by
  simpa [heldEntries, without] using (OrderedMap.toList_perm_cons_erase _ hd).flatMap_right Prod.snd

theorem getElem?_byDecision_without (d' : AdmissionDecisionId) :
    (ledger.without d es).byDecision[d']? = if d = d' then none else ledger.byDecision[d']? := by
  simp [without, ExtTreeMap.getElem?_erase]

theorem held_without (d' : AdmissionDecisionId) :
    (ledger.without d es).held d' = if d = d' then [] else ledger.held d' := by
  rw [held, ExtTreeMap.getD_eq_getD_getElem?, getElem?_byDecision_without, held,
    ExtTreeMap.getD_eq_getD_getElem?]
  split <;> rfl

theorem holds_of_release {ledger' : AdmittedLoadLedger}
    (h : ledger.release d = .ok (es, ledger')) (hholds : ledger'.holds d' = true) :
    ledger.holds d' = true := by
  obtain ⟨-, -, -, rfl⟩ := release_eq_ok_iff.mp h
  rw [holds, getElem?_byDecision_without] at hholds
  split at hholds
  · cases hholds
  · exact hholds

theorem Labelled.filter_entries_perm (hlabelled : ledger.Labelled)
    (hd : ledger.byDecision[d]? = some es) :
    (ledger.entries.filter (·.decision = d)).Perm es := by
  have hother : (ledger.without d es).heldEntries.filter (·.decision = d) = [] := by
    rw [List.filter_eq_nil_iff]
    intro e he
    obtain ⟨d', es', hd', hmem⟩ := mem_heldEntries.mp he
    rw [getElem?_byDecision_without] at hd'
    split at hd'
    · simp at hd'
    · rename_i hne
      simpa [hlabelled d' es' hd' e hmem] using Ne.symm hne
  have hown : es.filter (·.decision = d) = es := by
    rw [List.filter_eq_self]
    intro e he
    simpa using hlabelled d es hd e he
  have hperm := ((List.perm_insertionSort entryLe ledger.heldEntries).trans
    (heldEntries_perm_without hd)).filter (·.decision = d)
  rwa [List.filter_append, hother, hown, List.append_nil] at hperm

theorem WellFormed.toNat_admitted_without (hwf : ledger.WellFormed)
    (hd : ledger.byDecision[d]? = some es) (r : ResourceId) :
    ((ledger.without d es).admitted r).toNat + loadOn es r = (ledger.admitted r).toNat := by
  rw [← amountOn_map]
  refine toNat_subLoad ?_ ?_ r
  · simpa [Function.comp_def] using hwf.nodup d es hd
  · intro a ha
    obtain ⟨e, he, rfl⟩ := List.mem_map.mp ha
    exact hwf.amount_le_admitted (mem_heldEntries.mpr ⟨d, es, hd, he⟩)

theorem WellFormed.admitted_without_le (hwf : ledger.WellFormed)
    (hd : ledger.byDecision[d]? = some es) (r : ResourceId) :
    (ledger.without d es).admitted r ≤ ledger.admitted r := by
  rw [UInt64.le_iff_toNat_le, ← hwf.toNat_admitted_without hd r]
  exact Nat.le_add_right _ _

theorem WellFormed.without (hwf : ledger.WellFormed) (hd : ledger.byDecision[d]? = some es) :
    (ledger.without d es).WellFormed := by
  have hlook : ∀ (d' : AdmissionDecisionId) (es' : List LedgerEntry),
      (ledger.without d es).byDecision[d']? = some es' → ledger.byDecision[d']? = some es' := by
    intro d' es' h
    rw [getElem?_byDecision_without] at h
    split at h
    · exact absurd h (by simp)
    · exact h
  have hperm := heldEntries_perm_without hd
  refine ⟨fun d' es' h => hwf.ne_nil d' es' (hlook d' es' h),
    fun d' es' h => hwf.decision_eq d' es' (hlook d' es' h),
    fun d' es' h => hwf.nodup d' es' (hlook d' es' h), fun r => ?_, ?_⟩
  · have hsub := hwf.toNat_admitted_without hd r
    have hload := loadOn_perm hperm r
    rw [loadOn_append, ← hwf.admitted_eq] at hload
    omega
  · have hlen := hperm.length_eq
    have hcount : (ledger.without d es).entryCount = ledger.entryCount - es.length := rfl
    rw [List.length_append, ← hwf.entryCount_eq] at hlen
    omega

theorem WellFormed.release (hwf : ledger.WellFormed) {ledger' : AdmittedLoadLedger}
    (h : ledger.release d = .ok (es, ledger')) : ledger'.WellFormed := by
  obtain ⟨-, hd, -, rfl⟩ := release_eq_ok_iff.mp h
  exact hwf.without hd

/-- Positive load can be released: none of its totals has been erased. -/
theorem WellFormed.release_of_pos (hwf : ledger.WellFormed) (hne : d ≠ 0)
    (hd : ledger.byDecision[d]? = some es) (hpos : ∀ e ∈ es, e.amount ≠ 0) :
    ledger.release d = .ok (es, ledger.without d es) := by
  refine release_eq_ok_iff.mpr ⟨hne, hd, checkTotals_eq_ok_iff.mpr fun e he => ?_, rfl⟩
  have hle := hwf.amount_le_admitted (mem_heldEntries.mpr ⟨d, es, hd, he⟩)
  simp only [admitted, ExtTreeMap.getD_eq_getD_getElem?] at hle
  cases htotal : ledger.totals[e.resource]? with
  | none =>
    rw [htotal] at hle
    exact absurd (UInt64.le_zero_iff.mp hle) (hpos e he)
  | some total => exact ⟨total, rfl, by simpa [htotal] using hle⟩

theorem release_of_reserve {ledger ledger' : AdmittedLoadLedger} {demand : DemandId}
    {amounts : List (ResourceId × Rate)} (hnodup : (amounts.map Prod.fst).Nodup)
    (h : ledger.reserve d demand epoch generation path amounts = (.ok (), ledger')) :
    ∃ es ledger'', ledger'.release d = .ok (es, ledger'') ∧
      ledger''.byDecision = ledger.byDecision ∧ ledger''.entryCount = ledger.entryCount ∧
      ∀ r, ledger''.admitted r = ledger.admitted r := by
  obtain ⟨hcheck, pathTotals, -, rfl⟩ := reserve_eq_ok_iff.mp h
  obtain ⟨hne, hfree, -, -, hfit⟩ := checkReserve_eq_ok_iff.mp hcheck
  have hfit' : ∀ a ∈ amounts, (ledger.totals.getD a.1 0).toNat + a.2.toNat < 2 ^ 64 :=
    fun a ha => (hfit a ha).2
  refine ⟨_, _, release_eq_ok_iff.mpr ⟨hne, ExtTreeMap.getElem?_insert_self, ?_, rfl⟩, ?_, ?_, ?_⟩
  · refine checkTotals_eq_ok_iff.mpr fun e he => ?_
    obtain ⟨a, ha, rfl⟩ := List.mem_map.mp he
    have hmem := mem_addLoad ledger.totals (Or.inl (List.mem_map_of_mem ha))
    have hcover := le_getD_addLoad hnodup hfit' ha
    rw [ExtTreeMap.mem_iff_isSome_getElem?, Option.isSome_iff_exists] at hmem
    obtain ⟨total, htotal⟩ := hmem
    rw [ExtTreeMap.getD_eq_getD_getElem?, htotal] at hcover
    simp only [withReservation, map_newEntries]
    exact ⟨total, htotal, hcover⟩
  · refine ExtTreeMap.ext_getElem? fun d' => ?_
    simp only [without, withReservation, ExtTreeMap.getElem?_erase, ExtTreeMap.getElem?_insert,
      Std.compare_eq_iff_eq]
    by_cases hd : d = d'
    · subst hd
      simp [hfree]
    · simp [hd]
  · exact Nat.add_sub_cancel _ _
  · intro r
    simp only [admitted, without, withReservation, map_newEntries]
    exact getD_subLoad_addLoad hnodup hfit' r

end Release

/-! ### Revalidation flags -/

theorem getElem?_byDecision_setFlags (ledger : AdmittedLoadLedger) (flag : Bool)
    (d : AdmissionDecisionId) :
    (ledger.setFlags flag).byDecision[d]? = ledger.byDecision[d]?.map fun es =>
      es.map fun e => { e with requiresRevalidation := flag } := by
  simp [setFlags]

theorem setFlags_setFlags (ledger : AdmittedLoadLedger) (flag flag' : Bool) :
    (ledger.setFlags flag).setFlags flag' = ledger.setFlags flag' := by
  have hby : ((ledger.setFlags flag).setFlags flag').byDecision =
      (ledger.setFlags flag').byDecision := by
    refine ExtTreeMap.ext_getElem? fun d => ?_
    simp only [getElem?_byDecision_setFlags, Option.map_map, Function.comp_def, List.map_map]
  simp only [setFlags, mk.injEq, true_and, and_true] at hby ⊢
  exact hby

theorem held_setFlags (ledger : AdmittedLoadLedger) (flag : Bool) (d : AdmissionDecisionId) :
    (ledger.setFlags flag).held d =
      (ledger.held d).map fun e => { e with requiresRevalidation := flag } := by
  rw [held, ExtTreeMap.getD_eq_getD_getElem?, getElem?_byDecision_setFlags, held,
    ExtTreeMap.getD_eq_getD_getElem?]
  cases ledger.byDecision[d]? <;> rfl

@[simp] theorem holds_setFlags (ledger : AdmittedLoadLedger) (flag : Bool)
    (d : AdmissionDecisionId) : (ledger.setFlags flag).holds d = ledger.holds d := by
  rw [holds, holds, getElem?_byDecision_setFlags, Option.isSome_map]

@[simp] theorem admitted_setFlags (ledger : AdmittedLoadLedger) (flag : Bool) (r : ResourceId) :
    (ledger.setFlags flag).admitted r = ledger.admitted r := rfl

theorem heldEntries_setFlags (ledger : AdmittedLoadLedger) (flag : Bool) :
    (ledger.setFlags flag).heldEntries =
      ledger.heldEntries.map fun e => { e with requiresRevalidation := flag } := by
  simp [heldEntries, setFlags, List.flatMap_map, List.map_flatMap]

theorem WellFormed.setFlags {ledger : AdmittedLoadLedger} (hwf : ledger.WellFormed)
    (flag : Bool) : (ledger.setFlags flag).WellFormed := by
  have hlook : ∀ (d : AdmissionDecisionId) (es : List LedgerEntry),
      (ledger.setFlags flag).byDecision[d]? = some es → ∃ es', ledger.byDecision[d]? = some es' ∧
        es = es'.map fun e => { e with requiresRevalidation := flag } := by
    intro d es h
    rw [getElem?_byDecision_setFlags, Option.map_eq_some_iff] at h
    obtain ⟨es', hold, rfl⟩ := h
    exact ⟨es', hold, rfl⟩
  refine ⟨?_, ?_, ?_, fun r => ?_, ?_⟩
  · intro d es h
    obtain ⟨es', hold, rfl⟩ := hlook d es h
    simpa using hwf.ne_nil d es' hold
  · intro d es h e he
    obtain ⟨es', hold, rfl⟩ := hlook d es h
    obtain ⟨e', he', rfl⟩ := List.mem_map.mp he
    exact hwf.decision_eq d es' hold e' he'
  · intro d es h
    obtain ⟨es', hold, rfl⟩ := hlook d es h
    simpa [Function.comp_def] using hwf.nodup d es' hold
  · rw [admitted_setFlags, hwf.admitted_eq, heldEntries_setFlags]
    simp [loadOn, List.filter_map, Function.comp_def]
  · rw [heldEntries_setFlags, List.length_map]
    exact hwf.entryCount_eq

end AdmittedLoadLedger

end AdmissionFabric
