import AdmissionFabric.Engine.Decision
import AdmissionFabric.Library.OrderedMap

/-!
# Attempt identity registry

The idempotency guard. The same (demand, attempt) pair with the same fingerprint is a replay and
returns the original decision; with a different fingerprint it is identity reuse. A request
identity seen with another fingerprint is refused as well. Recording an attempt overwrites what
was recorded under the same pair, but never the fingerprint first seen for a request identity.

Source: `include/naf/engine/history.hpp`, `src/engine/history.cpp`.
-/

namespace AdmissionFabric

open Std (ExtTreeMap)
open OrderedMap (pairCmp)

/-- What an attempt is to the registry. -/
inductive AttemptDisposition
  | new
  | replay
  | conflict
  deriving DecidableEq, Repr

/-- A decided attempt. -/
structure AttemptRecord where
  request : AdmissionRequestId := 0
  demand : DemandId := 0
  demandGeneration : Generation := 0
  attempt : AttemptId := 0
  fingerprint : UInt64 := 0
  decision : AdmissionDecisionId := 0
  outcome : AdmissionOutcome := .rejectPolicy
  recordedTick : UInt64 := 0
  deriving DecidableEq, Repr

/-- The key under which an attempt is recorded. -/
def AttemptRecord.key (record : AttemptRecord) : DemandId × AttemptId :=
  (record.demand, record.attempt)

/-- The decided attempts, with a bound. -/
structure AttemptRegistry where
  capacity : Nat := Limits.maxAttemptRecords
  attempts : ExtTreeMap (DemandId × AttemptId) AttemptRecord pairCmp := ∅
  requestFingerprints : ExtTreeMap AdmissionRequestId UInt64 := ∅
  retired : Nat := 0

namespace AttemptRegistry

variable {fp : UInt64} {capacity : Nat}

/-- The disposition of an attempt, and what is registered for it. -/
structure Classification where
  disposition : AttemptDisposition := .new
  existing : AttemptRecord := {}
  requestIdConflict : Bool := false
  deriving DecidableEq, Repr

/-- Compare an attempt with what is registered. -/
def classify (registry : AttemptRegistry) (candidate : AttemptRecord) : Classification :=
  match registry.attempts[candidate.key]? with
  | some existing =>
    if existing.fingerprint = candidate.fingerprint then { disposition := .replay, existing }
    else { disposition := .conflict, existing }
  | none =>
    -- the request identity itself must never be reused for different content
    if candidate.request ≠ 0 ∧ ∃ fp ∈ registry.requestFingerprints[candidate.request]?,
        fp ≠ candidate.fingerprint then
      { disposition := .conflict, requestIdConflict := true }
    else {}

/-- Retire the smallest keys until there is room for one more; the fuel is the number of keys. -/
def makeRoom (capacity : Nat) : Nat → ExtTreeMap (DemandId × AttemptId) AttemptRecord pairCmp →
    Nat → ExtTreeMap (DemandId × AttemptId) AttemptRecord pairCmp × Nat
  | 0, attempts, retired => (attempts, retired)
  | fuel + 1, attempts, retired =>
    if attempts.size ≥ capacity then
      match attempts.minKey? with
      | some oldest => makeRoom capacity fuel (attempts.erase oldest) (retired + 1)
      | none => (attempts, retired)
    else (attempts, retired)

/-- Register an attempt; a full registry gives up its smallest key. -/
def record (registry : AttemptRegistry) (candidate : AttemptRecord) : AttemptRegistry :=
  let (attempts, retired) :=
    if (registry.attempts[candidate.key]?).isSome then (registry.attempts, registry.retired)
    else makeRoom registry.capacity registry.attempts.size registry.attempts registry.retired
  { registry with
    attempts := attempts.insert candidate.key candidate
    retired
    requestFingerprints :=
      if candidate.request ≠ 0 then
        registry.requestFingerprints.insertIfNew candidate.request candidate.fingerprint
      else registry.requestFingerprints }

/-! ### Recording below the capacity -/

theorem makeRoom_of_lt {attempts : ExtTreeMap (DemandId × AttemptId) AttemptRecord pairCmp}
    (h : attempts.size < capacity) (fuel retired : Nat) :
    makeRoom capacity fuel attempts retired = (attempts, retired) := by
  cases fuel with
  | zero => rfl
  | succ fuel => rw [makeRoom, if_neg (Nat.not_le.mpr h)]

theorem getElem?_of_makeRoom {fuel : Nat}
    {attempts : ExtTreeMap (DemandId × AttemptId) AttemptRecord pairCmp} {retired : Nat}
    {key : DemandId × AttemptId} {record : AttemptRecord}
    (h : (makeRoom capacity fuel attempts retired).1[key]? = some record) :
    attempts[key]? = some record := by
  induction fuel generalizing attempts retired with
  | zero => exact h
  | succ fuel ih =>
    rw [makeRoom] at h
    split at h
    · split at h
      · have hkept := ih h
        rw [ExtTreeMap.getElem?_erase] at hkept
        split at hkept
        · cases hkept
        · exact hkept
      · exact h
    · exact h

variable {registry : AttemptRegistry} {candidate : AttemptRecord}

theorem of_getElem?_attempts_record {key : DemandId × AttemptId} {record : AttemptRecord}
    (h : (registry.record candidate).attempts[key]? = some record) :
    record = candidate ∨ registry.attempts[key]? = some record := by
  unfold AttemptRegistry.record at h
  simp only [ExtTreeMap.getElem?_insert] at h
  split at h
  · exact Or.inl (Option.some.inj h).symm
  · split at h
    · exact Or.inr h
    · exact Or.inr (getElem?_of_makeRoom h)

theorem attempts_record
    (h : (registry.attempts[candidate.key]?).isSome ∨ registry.attempts.size < registry.capacity) :
    (registry.record candidate).attempts = registry.attempts.insert candidate.key candidate := by
  unfold record
  by_cases hkey : (registry.attempts[candidate.key]?).isSome
  · simp only [hkey, ↓reduceIte]
  · rcases h with h | h
    · exact absurd h hkey
    · simp only [hkey, Bool.false_eq_true, ↓reduceIte, makeRoom_of_lt h]

theorem getElem?_attempts_record
    (h : (registry.attempts[candidate.key]?).isSome ∨ registry.attempts.size < registry.capacity)
    (key : DemandId × AttemptId) :
    (registry.record candidate).attempts[key]? =
      if candidate.key = key then some candidate else registry.attempts[key]? := by
  rw [attempts_record h, ExtTreeMap.getElem?_insert]
  simp only [Std.LawfulEqCmp.compare_eq_iff_eq]

theorem getElem?_requestFingerprints_record (request : AdmissionRequestId) :
    (registry.record candidate).requestFingerprints[request]? =
      if candidate.request = request ∧ request ≠ 0 then
        some (registry.requestFingerprints[request]?.getD candidate.fingerprint)
      else registry.requestFingerprints[request]? := by
  simp only [record]
  by_cases hzero : candidate.request = 0
  · rw [if_neg (not_not.mpr hzero), if_neg]
    rintro ⟨hreq, hne⟩
    exact hne (hreq.symm.trans hzero)
  · rw [if_pos hzero, ExtTreeMap.getElem?_insertIfNew]
    by_cases hreq : candidate.request = request
    · subst hreq
      cases hget : registry.requestFingerprints[candidate.request]? with
      | none =>
        have hnot : candidate.request ∉ registry.requestFingerprints := by
          rw [ExtTreeMap.mem_iff_isSome_getElem?, hget]
          simp
        simp [hzero, hnot]
      | some fp =>
        have hmem : candidate.request ∈ registry.requestFingerprints := by
          rw [ExtTreeMap.mem_iff_isSome_getElem?, hget]
          rfl
        simp [hzero, hmem]
    · simp [hreq]

/-! ### Classification -/

theorem classify_congr {registry' : AttemptRegistry}
    (hattempt : registry'.attempts[candidate.key]? = registry.attempts[candidate.key]?)
    (hrequest : registry'.requestFingerprints[candidate.request]? =
      registry.requestFingerprints[candidate.request]?) :
    registry'.classify candidate = registry.classify candidate := by
  unfold classify
  rw [hattempt, hrequest]

theorem existing_of_replay (h : (registry.classify candidate).disposition = .replay) :
    registry.attempts[candidate.key]? = some (registry.classify candidate).existing := by
  unfold classify at h ⊢
  cases hget : registry.attempts[candidate.key]? with
  | none =>
    simp only [hget] at h
    split at h <;> cases h
  | some existing =>
    simp only [hget] at h ⊢
    split at h
    · rename_i hsame
      rw [if_pos hsame]
    · cases h

theorem getElem?_of_new (h : (registry.classify candidate).disposition = .new) :
    registry.attempts[candidate.key]? = none := by
  unfold classify at h
  cases hget : registry.attempts[candidate.key]? with
  | none => rfl
  | some existing =>
    simp only [hget] at h
    split at h <;> cases h

theorem fingerprint_of_new (h : (registry.classify candidate).disposition = .new)
    (hknown : candidate.request ≠ 0)
    (hget : registry.requestFingerprints[candidate.request]? = some fp) :
    fp = candidate.fingerprint := by
  by_contra hne
  have hreused : candidate.request ≠ 0 ∧
      ∃ fp ∈ registry.requestFingerprints[candidate.request]?, fp ≠ candidate.fingerprint :=
    ⟨hknown, fp, hget, hne⟩
  have hclassify := h
  unfold classify at hclassify
  simp only [getElem?_of_new h, if_pos hreused] at hclassify
  cases hclassify

theorem classify_of_same {existing : AttemptRecord}
    (hget : registry.attempts[candidate.key]? = some existing)
    (hsame : existing.fingerprint = candidate.fingerprint) :
    registry.classify candidate = { disposition := .replay, existing } := by
  unfold classify
  simp only [hget, if_pos hsame]

theorem classify_of_other {existing : AttemptRecord}
    (hget : registry.attempts[candidate.key]? = some existing)
    (hother : existing.fingerprint ≠ candidate.fingerprint) :
    registry.classify candidate = { disposition := .conflict, existing } := by
  unfold classify
  simp only [hget, if_neg hother]

theorem disposition_of_reused (hreplay : (registry.classify candidate).disposition ≠ .replay)
    (hknown : candidate.request ≠ 0)
    (hget : registry.requestFingerprints[candidate.request]? = some fp)
    (hother : fp ≠ candidate.fingerprint) :
    (registry.classify candidate).disposition = .conflict := by
  cases hdisposition : (registry.classify candidate).disposition with
  | replay => exact absurd hdisposition hreplay
  | conflict => rfl
  | new => exact absurd (fingerprint_of_new hdisposition hknown hget) hother

end AttemptRegistry

end AdmissionFabric
