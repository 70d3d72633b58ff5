import AdmissionFabric.Engine.LedgerAccounting

/-!
# Exact accounting of path load

The load on a path is the sum of the grants that are bound to it, each counted once. `reserve`
adds one grant to the total of a path; `release` subtracts the saturated sum over all entries of
the decision. The two agree for a decision whose entries sum up to its grant, which is said of it
by `Faithful`: a decision on several resources is faithful only if its grant is zero or saturates.
-/

namespace AdmissionFabric

open Std (ExtTreeMap)

variable {epoch : FabricEpoch} {generation : Generation} {path : PathId}

/-! ### The grant of a decision -/

/-- The grant that a decision with these entries has bound to a path. -/
def grantOn (entries : List LedgerEntry) (path : PathId) : Nat :=
  match entries.head? with
  | none => 0
  | some front => if front.path = path then front.amount.toNat else 0

/-- What a release takes off the total of the path. -/
def pathRelease (entries : List LedgerEntry) : Rate :=
  (({} : SumLatch).addAll (entries.map (·.amount))).saturatedTotal

/-- A release takes exactly the grant off the total of the path, or is bound to no path. -/
def Faithful (entries : List LedgerEntry) : Prop :=
  ∀ front ∈ entries.head?, front.path = 0 ∨ pathRelease entries = front.amount

instance (entries : List LedgerEntry) : Decidable (Faithful entries) := by
  unfold Faithful
  infer_instance

theorem Faithful.setFlags {entries : List LedgerEntry} (h : Faithful entries) (flag : Bool) :
    Faithful (entries.map fun e => { e with requiresRevalidation := flag }) := by
  cases entries with
  | nil => simp [Faithful]
  | cons front rest => simpa [Faithful, pathRelease, Function.comp_def] using h

theorem faithful_newEntries_of_path {d : AdmissionDecisionId} {demand : DemandId}
    {amounts : List (ResourceId × Rate)} (hpath : path = 0) :
    Faithful (AdmittedLoadLedger.newEntries d demand epoch generation path amounts) := by
  cases amounts <;> simp [Faithful, AdmittedLoadLedger.newEntries, hpath]

/-- Taken off exactly: one resource, a grant of zero, or one that exhausts 64 bits. -/
theorem faithful_newEntries_iff {d : AdmissionDecisionId} {demand : DemandId}
    {targets : List ResourceId} {granted : Rate} (hpath : path ≠ 0) (htargets : targets ≠ []) :
    Faithful (AdmittedLoadLedger.newEntries d demand epoch generation path
        (targets.map fun resource => (resource, granted))) ↔
      targets.length = 1 ∨ granted = 0 ∨ granted.toNat = 2 ^ 64 - 1 := by
  have hsum : (pathRelease (AdmittedLoadLedger.newEntries d demand epoch generation path
      (targets.map fun resource => (resource, granted)))).toNat =
        min (targets.length * granted.toNat) (2 ^ 64 - 1) := by
    rw [pathRelease, SumLatch.toNat_saturatedTotal_addAll]
    simp [AdmittedLoadLedger.newEntries, Function.comp_def]
  have hpos : 0 < targets.length := List.length_pos_iff.mpr htargets
  obtain ⟨resource, rest, rfl⟩ := List.exists_cons_of_ne_nil htargets
  have hfaithful : Faithful (AdmittedLoadLedger.newEntries d demand epoch generation path
      ((resource :: rest).map fun resource => (resource, granted))) ↔
        min ((resource :: rest).length * granted.toNat) (2 ^ 64 - 1) = granted.toNat := by
    rw [← hsum, UInt64.toNat_inj]
    simp [Faithful, AdmittedLoadLedger.newEntries, hpath]
  rw [hfaithful, ← UInt64.toNat_inj]
  have hlt := granted.toNat_lt
  -- on two resources or more the sum exceeds a positive grant, so only saturation can hide it
  rcases Nat.lt_or_ge 1 (resource :: rest).length with hmany | hone
  · have hmul := Nat.mul_le_mul_right granted.toNat hmany
    have hzero : (0 : UInt64).toNat = 0 := rfl
    constructor
    · intro h
      omega
    · rintro (h | h | h)
      · omega
      · rw [h, hzero, Nat.mul_zero]
        omega
      · omega
  · have hone : (resource :: rest).length = 1 := by omega
    rw [hone, Nat.one_mul]
    omega

namespace AdmittedLoadLedger

variable {p : PathId} {pathTotals : ExtTreeMap PathId Rate}

/-- The sum of the live grants that are bound to a path. -/
def pathLoad (ledger : AdmittedLoadLedger) (path : PathId) : Nat :=
  (ledger.byDecision.toList.map fun held => grantOn held.2 path).sum

/-- The total of every path is the sum of its live grants. -/
def PathExact (ledger : AdmittedLoadLedger) : Prop :=
  ∀ path, path ≠ 0 → (ledger.admittedOnPath path).toNat = ledger.pathLoad path

/-- What cannot be taken off exactly stays. -/
def KeepsUnfaithful (ledger ledger' : AdmittedLoadLedger) : Prop :=
  ∀ held ∈ ledger.byDecision.toList, Faithful held.2 ∨ ledger'.holds held.1 = true

instance (ledger ledger' : AdmittedLoadLedger) : Decidable (ledger.KeepsUnfaithful ledger') := by
  unfold KeepsUnfaithful
  infer_instance

theorem KeepsUnfaithful.holds {ledger ledger' : AdmittedLoadLedger}
    (h : ledger.KeepsUnfaithful ledger') {d : AdmissionDecisionId}
    (hd : ¬ Faithful (ledger.held d)) : ledger'.holds d = true := by
  rw [AdmittedLoadLedger.held, ExtTreeMap.getD_eq_getD_getElem?] at hd
  cases hheld : ledger.byDecision[d]? with
  | none => simp [hheld, Faithful] at hd
  | some entries =>
    rw [hheld] at hd
    exact (h (d, entries) (ExtTreeMap.mem_toList_iff_getElem?_eq_some.mpr hheld)).resolve_left hd

theorem PathExact.empty : ({} : AdmittedLoadLedger).PathExact := by
  intro path hpath
  simp [admittedOnPath, pathLoad]

/-! ### Reservations -/

section Reserve

variable {ledger ledger' : AdmittedLoadLedger} {d : AdmissionDecisionId} {demand : DemandId}
  {epoch : FabricEpoch} {generation : Generation} {path : PathId}
  {amounts : List (ResourceId × Rate)}

theorem pathLoad_withReservation {entries : List LedgerEntry} (hd : ledger.byDecision[d]? = none)
    (p : PathId) :
    (ledger.withReservation d entries pathTotals).pathLoad p =
      grantOn entries p + ledger.pathLoad p := by
  have hperm := (OrderedMap.toList_insert_perm ledger.byDecision (v := entries) hd).map
    fun held => grantOn held.2 p
  simpa [pathLoad, withReservation] using hperm.sum_nat

theorem grantOn_newEntries (p : PathId) :
    grantOn (newEntries d demand epoch generation path amounts) p =
      if path = p then ((amounts.head?.map Prod.snd).getD 0).toNat else 0 := by
  cases amounts with
  | nil | cons a rest => simp [grantOn, newEntries]

theorem toNat_addPath (h : ledger.addPath path amounts = some pathTotals) (hp : p ≠ 0) :
    (pathTotals.getD p 0).toNat = (ledger.pathTotals.getD p 0).toNat +
      if path = p then ((amounts.head?.map Prod.snd).getD 0).toNat else 0 := by
  unfold addPath at h
  split at h
  · rename_i hzero
    have hne : path ≠ p := fun heq => hp (heq.symm.trans hzero)
    rw [if_neg hne, ← Option.some.inj h, Nat.add_zero]
  · obtain ⟨updated, hadd, rfl⟩ := Option.map_eq_some_iff.mp h
    rw [ExtTreeMap.getD_insert]
    by_cases heq : path = p
    · simp [heq, (addU64_eq_some_iff _ _ _).mp hadd]
    · simp [heq]

theorem PathExact.reserve (h : ledger.PathExact) {result : Except Status Unit}
    (hreserve : ledger.reserve d demand epoch generation path amounts = (result, ledger')) :
    ledger'.PathExact := by
  rcases result with s | ⟨⟩
  · unfold AdmittedLoadLedger.reserve at hreserve
    split at hreserve
    · rw [← (Prod.mk.inj hreserve).2]
      exact h
    · split at hreserve
      · rw [← (Prod.mk.inj hreserve).2]
        exact h
      · cases hreserve
  · obtain ⟨hcheck, pathTotals, hpath, rfl⟩ := reserve_eq_ok_iff.mp hreserve
    have hfresh := (checkReserve_eq_ok_iff.mp hcheck).2.1
    intro p hp
    have hexact := h p hp
    rw [admittedOnPath, if_neg hp] at hexact ⊢
    rw [pathLoad_withReservation hfresh, grantOn_newEntries, ← hexact, Nat.add_comm]
    exact toNat_addPath hpath hp

end Reserve

/-! ### Releases -/

section Release

variable {ledger : AdmittedLoadLedger} {d : AdmissionDecisionId} {entries : List LedgerEntry}

theorem pathLoad_without (hd : ledger.byDecision[d]? = some entries) (p : PathId) :
    ledger.pathLoad p = grantOn entries p + (ledger.without d entries).pathLoad p := by
  have hperm := (OrderedMap.toList_perm_cons_erase ledger.byDecision hd).map
    fun held => grantOn held.2 p
  simpa [pathLoad, without] using hperm.sum_nat

theorem toNat_subPath (hfaithful : Faithful entries) (hp : p ≠ 0)
    (hle : grantOn entries p ≤ (pathTotals.getD p 0).toNat) :
    ((subPath pathTotals entries).getD p 0).toNat + grantOn entries p =
      (pathTotals.getD p 0).toNat := by
  unfold subPath
  cases hfront : entries.head? with
  | none => simp [grantOn, hfront]
  | some front =>
    simp only [grantOn, hfront] at hle ⊢
    by_cases hpath : front.path = p
    · have hne : front.path ≠ 0 := fun h => hp (hpath ▸ h)
      have hexact : pathRelease entries = front.amount :=
        (hfaithful front hfront).resolve_left hne
      rw [if_pos hpath] at hle ⊢
      rw [if_neg hne]
      split
      · -- without a total the grant is zero
        rename_i hnone
        rw [hpath] at hnone
        rw [ExtTreeMap.getD_eq_getD_getElem?, hnone] at hle ⊢
        simp only [Option.getD_none, UInt64.toNat_zero] at hle ⊢
        omega
      · rw [getD_subtract, if_pos hpath, hpath, ← pathRelease, hexact,
          UInt64.toNat_sub_of_le _ _ (UInt64.le_iff_toNat_le.mpr hle)]
        omega
    · rw [if_neg hpath, Nat.add_zero]
      split
      · rfl
      · split
        · rfl
        · rw [getD_subtract, if_neg hpath]

theorem PathExact.without (h : ledger.PathExact) (hd : ledger.byDecision[d]? = some entries)
    (hfaithful : Faithful entries) : (ledger.without d entries).PathExact := by
  intro p hp
  have hexact := h p hp
  rw [admittedOnPath, if_neg hp, pathLoad_without hd] at hexact
  rw [admittedOnPath, if_neg hp]
  have hle : grantOn entries p ≤ (ledger.pathTotals.getD p 0).toNat := by omega
  have hsub := toNat_subPath hfaithful hp hle
  change ((subPath ledger.pathTotals entries).getD p 0).toNat = _
  omega

theorem PathExact.release {ledger' : AdmittedLoadLedger} (h : ledger.PathExact)
    (hfaithful : Faithful (ledger.held d)) (hrelease : ledger.release d = .ok (entries, ledger')) :
    ledger'.PathExact := by
  obtain ⟨-, hd, -, rfl⟩ := release_eq_ok_iff.mp hrelease
  refine h.without hd ?_
  rwa [held, ExtTreeMap.getD_eq_getD_getElem?, hd] at hfaithful

end Release

/-! ### Flags -/

theorem grantOn_setFlags (entries : List LedgerEntry) (flag : Bool) (p : PathId) :
    grantOn (entries.map fun e => { e with requiresRevalidation := flag }) p =
      grantOn entries p := by
  cases entries <;> rfl

theorem PathExact.setFlags {ledger : AdmittedLoadLedger} (h : ledger.PathExact) (flag : Bool) :
    (ledger.setFlags flag).PathExact := by
  intro p hp
  have hload : (ledger.setFlags flag).pathLoad p = ledger.pathLoad p := by
    simp [pathLoad, AdmittedLoadLedger.setFlags, Function.comp_def, grantOn_setFlags]
  rw [hload]
  exact h p hp

end AdmittedLoadLedger

end AdmissionFabric
