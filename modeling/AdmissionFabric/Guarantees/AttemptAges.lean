import AdmissionFabric.Engine.Attempts
import AdmissionFabric.Library.Run

/-!
# The age of recorded attempts

The registry of attempts is meant to be bounded and to retire the oldest attempt first. It makes
room by removing the smallest key, and the keys are the identities of demands and attempts, so
what it removes need not be the oldest attempt. The fingerprints of request identities are never
removed at all.

In a run of any length the registry retains the most recent attempts, with no more request
identities than attempts, if and only if each step that has to make room finds the oldest attempt at
the smallest key, and brings a new request identity only while there are fewer of them than
attempts.
-/

namespace AdmissionFabric

open Std (ExtTreeMap)
open OrderedMap (pairCmp)

/-- A registry, and the keys that were ever recorded. The key that was last recorded for the first
time most recently is in front. -/
structure AgedRegistry where
  registry : AttemptRegistry := {}
  order : List (DemandId × AttemptId) := []

namespace AgedRegistry

/-- An empty registry. -/
def empty (capacity : Nat) : AgedRegistry := { registry := { capacity } }

/-- Record an attempt. A key that is retained keeps its age. -/
def step (aged : AgedRegistry) (candidate : AttemptRecord) : AgedRegistry where
  registry := aged.registry.record candidate
  order :=
    if candidate.key ∈ aged.registry.attempts then aged.order
    else candidate.key :: aged.order.erase candidate.key

/-- The most recent keys, as many as the registry has room for. -/
def recent (aged : AgedRegistry) : List (DemandId × AttemptId) :=
  aged.order.take aged.registry.capacity

/-- The registry has the most recent keys, and not more request identities than attempts. -/
structure RetainsRecent (aged : AgedRegistry) : Prop where
  retained : ∀ key, key ∈ aged.registry.attempts ↔ key ∈ aged.recent
  requests : aged.registry.requestFingerprints.size ≤ aged.registry.attempts.size

/-- The number of attempts after one more. -/
def sizeAfter (aged : AgedRegistry) (candidate : AttemptRecord) : Nat :=
  if candidate.key ∈ aged.registry.attempts then aged.registry.attempts.size
  else min (aged.registry.attempts.size + 1) aged.registry.capacity

/-- If the attempt is new and the registry is full, the smallest key is the oldest. If the attempt
brings a new request identity, there will be more attempts than there were request identities. -/
def Orderly (aged : AgedRegistry) (candidate : AttemptRecord) : Prop :=
  (candidate.key ∈ aged.registry.attempts ∨
    aged.registry.attempts.size < aged.registry.capacity ∨
    aged.registry.attempts.minKey? = aged.recent.getLast?) ∧
  (candidate.request = 0 ∨ candidate.request ∈ aged.registry.requestFingerprints ∨
    aged.registry.requestFingerprints.size < aged.sizeAfter candidate)

end AgedRegistry

/-! ### Recording -/

namespace AttemptRegistry

variable {registry : AttemptRegistry} {candidate : AttemptRecord}

theorem makeRoom_of_full {capacity : Nat}
    {attempts : ExtTreeMap (DemandId × AttemptId) AttemptRecord pairCmp}
    {oldest : DemandId × AttemptId} (hfull : attempts.size = capacity)
    (hmin : attempts.minKey? = some oldest) (retired : Nat) :
    makeRoom capacity attempts.size attempts retired = (attempts.erase oldest, retired + 1) := by
  have hmem := ExtTreeMap.minKey?_mem hmin
  have hpos : attempts.size ≠ 0 := by
    intro hzero
    rw [ExtTreeMap.eq_empty_iff_size_eq_zero.mpr hzero] at hmem
    exact ExtTreeMap.not_mem_empty hmem
  have hsize : (attempts.erase oldest).size < capacity := by
    have herase : (attempts.erase oldest).size = attempts.size - 1 :=
      ExtTreeMap.size_erase.trans (if_pos hmem)
    omega
  obtain ⟨fuel, hfuel⟩ := Nat.exists_eq_succ_of_ne_zero hpos
  rw [hfuel, makeRoom, if_pos hfull.ge]
  simp only [hmin]
  exact makeRoom_of_lt hsize _ _

theorem attempts_record_full {oldest : DemandId × AttemptId}
    (hnew : candidate.key ∉ registry.attempts)
    (hfull : registry.attempts.size = registry.capacity)
    (hmin : registry.attempts.minKey? = some oldest) :
    (registry.record candidate).attempts =
      (registry.attempts.erase oldest).insert candidate.key candidate := by
  rw [ExtTreeMap.mem_iff_isSome_getElem?] at hnew
  simp only [record, if_neg hnew, makeRoom_of_full hfull hmin]

theorem size_requestFingerprints_record :
    (registry.record candidate).requestFingerprints.size =
      registry.requestFingerprints.size +
        if candidate.request = 0 ∨ candidate.request ∈ registry.requestFingerprints then 0
        else 1 := by
  simp only [record]
  by_cases hzero : candidate.request = 0
  · simp [hzero]
  · rw [if_pos hzero, ExtTreeMap.size_insertIfNew]
    by_cases hmem : candidate.request ∈ registry.requestFingerprints
    · simp [hmem]
    · simp [hzero, hmem]

end AttemptRegistry

theorem mem_insert_iff {attempts : ExtTreeMap (DemandId × AttemptId) AttemptRecord pairCmp}
    {key key' : DemandId × AttemptId} {record : AttemptRecord} :
    key' ∈ attempts.insert key record ↔ key' = key ∨ key' ∈ attempts := by
  rw [ExtTreeMap.mem_insert, Std.LawfulEqCmp.compare_eq_iff_eq, eq_comm]

namespace AgedRegistry

variable {α : Type} {aged : AgedRegistry} {candidate : AttemptRecord}

/-! ### One step -/

theorem take_erase_of_notMem [BEq α] [LawfulBEq α] {a : α} {n : Nat} {l : List α}
    (h : a ∉ l.take n) : (l.erase a).take n = l.take n := by
  induction l generalizing n with
  | nil => simp
  | cons b l ih =>
    cases n with
    | zero => rfl
    | succ n =>
      rw [List.take_succ_cons, List.mem_cons, not_or] at h
      rw [List.erase_cons_tail (by simpa using Ne.symm h.1), List.take_succ_cons,
        List.take_succ_cons, ih h.2]

theorem nodup_step (h : aged.order.Nodup) (candidate : AttemptRecord) :
    (aged.step candidate).order.Nodup := by
  rw [step]
  split
  · exact h
  · exact List.nodup_cons.mpr ⟨h.not_mem_erase, h.erase _⟩

theorem RetainsRecent.size_eq (h : aged.RetainsRecent) (hnodup : aged.order.Nodup) :
    aged.registry.attempts.size = aged.recent.length := by
  have hperm : aged.registry.attempts.keys.Perm aged.recent := by
    refine (List.perm_ext_iff_of_nodup ExtTreeMap.nodup_keys
      (hnodup.sublist (List.take_sublist _ _))).mpr fun key => ?_
    rw [ExtTreeMap.mem_keys]
    exact h.retained key
  rw [← ExtTreeMap.length_keys, hperm.length_eq]

theorem recent_step (hpos : 1 ≤ aged.registry.capacity) (h : aged.RetainsRecent)
    (hnew : candidate.key ∉ aged.registry.attempts) :
    (aged.step candidate).recent =
      candidate.key :: aged.recent.take (aged.registry.capacity - 1) := by
  have hnot : candidate.key ∉ aged.order.take aged.registry.capacity :=
    fun hmem => hnew ((h.retained _).mpr hmem)
  obtain ⟨n, hn⟩ := Nat.exists_eq_succ_of_ne_zero (Nat.one_le_iff_ne_zero.mp hpos)
  have hcapacity : (aged.step candidate).registry.capacity = n + 1 := hn
  rw [recent, hcapacity, recent, step, if_neg hnew, List.take_succ_cons, hn,
    Nat.succ_sub_one, List.take_take, Nat.min_eq_left (Nat.le_succ n)]
  rw [hn] at hnot
  have hfront := congrArg (List.take n) (take_erase_of_notMem hnot)
  rw [List.take_take, List.take_take, Nat.min_eq_left (Nat.le_succ n)] at hfront
  rw [hfront]

theorem only_last_removed_iff {front : List α} {last removed new : α} (hnew : new ≠ last)
    (hlast : last ∉ front) :
    (∀ key, key = new ∨ ¬ removed = key ∧ (key ∈ front ∨ key = last) ↔
      key = new ∨ key ∈ front) ↔ removed = last := by
  constructor
  · intro hall
    by_contra hne
    rcases (hall last).mp (Or.inr ⟨hne, Or.inr rfl⟩) with heq | hmem
    · exact hnew heq.symm
    · exact hlast hmem
  · rintro rfl key
    refine or_congr_right ⟨?_, fun hmem => ⟨?_, Or.inl hmem⟩⟩
    · rintro ⟨hne, hmem | rfl⟩
      · exact hmem
      · exact absurd rfl hne
    · rintro rfl
      exact hlast hmem

/-- What the registry retains after a step, with its size. -/
structure StepEffect (aged : AgedRegistry) (candidate : AttemptRecord) : Prop where
  retained_iff : (∀ key, key ∈ (aged.step candidate).registry.attempts ↔
      key ∈ (aged.step candidate).recent) ↔
    candidate.key ∈ aged.registry.attempts ∨
      aged.registry.attempts.size < aged.registry.capacity ∨
      aged.registry.attempts.minKey? = aged.recent.getLast?
  size : (aged.step candidate).registry.attempts.size = aged.sizeAfter candidate

theorem stepEffect (hpos : 1 ≤ aged.registry.capacity) (h : aged.RetainsRecent)
    (hnodup : aged.order.Nodup) (candidate : AttemptRecord) : StepEffect aged candidate := by
  have hsize := h.size_eq hnodup
  have hbound : aged.recent.length ≤ aged.registry.capacity := by
    rw [recent, List.length_take]
    exact Nat.min_le_left _ _
  by_cases hknown : candidate.key ∈ aged.registry.attempts
  · -- the key keeps its age and its place
    have hattempts : (aged.step candidate).registry.attempts =
        aged.registry.attempts.insert candidate.key candidate :=
      AttemptRegistry.attempts_record (Or.inl (ExtTreeMap.mem_iff_isSome_getElem?.mp hknown))
    have hrecent : (aged.step candidate).recent = aged.recent := by
      rw [recent, step, if_pos hknown]
      rfl
    refine ⟨iff_of_true (fun key => ?_) (Or.inl hknown), ?_⟩
    · rw [hattempts, hrecent, mem_insert_iff, ← h.retained]
      exact or_iff_right_of_imp fun heq => heq ▸ hknown
    · rw [hattempts, sizeAfter, if_pos hknown]
      exact ExtTreeMap.size_insert.trans (if_pos hknown)
  · by_cases hroom : aged.registry.attempts.size < aged.registry.capacity
    · have hattempts : (aged.step candidate).registry.attempts =
          aged.registry.attempts.insert candidate.key candidate :=
        AttemptRegistry.attempts_record (Or.inr hroom)
      refine ⟨iff_of_true (fun key => ?_) (Or.inr (Or.inl hroom)), ?_⟩
      · rw [hattempts, recent_step hpos h hknown, List.take_of_length_le (by omega),
          mem_insert_iff, List.mem_cons, h.retained]
      · rw [hattempts, sizeAfter, if_neg hknown, Nat.min_eq_left hroom]
        exact ExtTreeMap.size_insert.trans (if_neg hknown)
    · -- the smallest key makes room for the new one
      have hfull : aged.registry.attempts.size = aged.registry.capacity := by omega
      obtain ⟨front, last, hsplit⟩ : ∃ front last, aged.recent = front ++ [last] := by
        rcases List.eq_nil_or_concat aged.recent with hnil | ⟨front, last, hsplit⟩
        · rw [hnil, List.length_nil] at hsize
          omega
        · exact ⟨front, last, hsplit.trans List.concat_eq_append⟩
      have hlast : last ∈ aged.registry.attempts := by
        rw [h.retained, hsplit]
        exact List.mem_append_right _ List.mem_cons_self
      obtain ⟨smallest, hmin⟩ :=
        Option.isSome_iff_exists.mp (ExtTreeMap.isSome_minKey?_of_mem hlast)
      have hsmallest := ExtTreeMap.minKey?_mem hmin
      have hattempts : (aged.step candidate).registry.attempts =
          (aged.registry.attempts.erase smallest).insert candidate.key candidate :=
        AttemptRegistry.attempts_record_full hknown hfull hmin
      refine ⟨?_, ?_⟩
      · have hlength : aged.registry.capacity - 1 = front.length := by
          rw [hsplit, List.length_append, List.length_singleton] at hsize
          omega
        have hfront : last ∉ front := by
          have hnodup' : (front ++ [last]).Nodup :=
            hsplit ▸ hnodup.sublist (List.take_sublist _ _)
          exact (List.nodup_append.mp hnodup').2.2 |> fun hne hmem =>
            hne last hmem last List.mem_cons_self rfl
        rw [or_iff_right hknown, or_iff_right hroom, hmin, hsplit, List.getLast?_concat,
          Option.some_inj, recent_step hpos h hknown, hlength, hsplit, List.take_left]
        simp only [hattempts, mem_insert_iff, ExtTreeMap.mem_erase, List.mem_cons, h.retained,
          hsplit, List.mem_append, List.not_mem_nil, or_false, ne_eq,
          Std.LawfulEqCmp.compare_eq_iff_eq]
        exact only_last_removed_iff (fun heq => hknown (heq ▸ hlast)) hfront
      · have herase : (aged.registry.attempts.erase smallest).size =
            aged.registry.attempts.size - 1 := ExtTreeMap.size_erase.trans (if_pos hsmallest)
        have hnot : candidate.key ∉ aged.registry.attempts.erase smallest :=
          fun hmem => hknown (ExtTreeMap.mem_erase.mp hmem).2
        have hinsert : (aged.step candidate).registry.attempts.size =
            (aged.registry.attempts.erase smallest).size + 1 := by
          rw [hattempts]
          exact ExtTreeMap.size_insert.trans (if_neg hnot)
        rw [hinsert, herase, sizeAfter, if_neg hknown]
        omega

/-- Recording an attempt keeps the most recent keys exactly if the step is orderly. -/
theorem retainsRecent_step_iff (hpos : 1 ≤ aged.registry.capacity) (h : aged.RetainsRecent)
    (hnodup : aged.order.Nodup) (candidate : AttemptRecord) :
    (aged.step candidate).RetainsRecent ↔ aged.Orderly candidate := by
  obtain ⟨hretained, hsize⟩ := stepEffect hpos h hnodup candidate
  have hgrows : aged.registry.attempts.size ≤ aged.sizeAfter candidate := by
    have hbound : aged.recent.length ≤ aged.registry.capacity := by
      rw [recent, List.length_take]
      exact Nat.min_le_left _ _
    rw [← h.size_eq hnodup] at hbound
    rw [sizeAfter]
    split
    · exact le_rfl
    · omega
  have hrequests : (aged.step candidate).registry.requestFingerprints.size ≤
      (aged.step candidate).registry.attempts.size ↔
      candidate.request = 0 ∨ candidate.request ∈ aged.registry.requestFingerprints ∨
        aged.registry.requestFingerprints.size < aged.sizeAfter candidate := by
    have hcount : (aged.step candidate).registry.requestFingerprints.size = _ :=
      AttemptRegistry.size_requestFingerprints_record
    rw [hsize, hcount, ← or_assoc]
    have hbefore := h.requests
    by_cases hold : candidate.request = 0 ∨
        candidate.request ∈ aged.registry.requestFingerprints
    · rw [if_pos hold]
      exact iff_of_true (by omega) (Or.inl hold)
    · rw [if_neg hold, or_iff_right hold]
      omega
  rw [Orderly, ← hretained, ← hrequests]
  exact ⟨fun hstep => ⟨hstep.retained, hstep.requests⟩, fun hboth => ⟨hboth.1, hboth.2⟩⟩

/-! ### Runs -/

/-- In a run from an empty registry, every state retains the most recent keys, with no more
request identities than attempts, if and only if every step is orderly. -/
theorem retainsRecent_run_iff {capacity : Nat} (hpos : 1 ≤ capacity)
    (candidates : List AttemptRecord) :
    (∀ n, (TransitionSystem.run step (empty capacity) (candidates.take n)).RetainsRecent) ↔
      TransitionSystem.Allowed step Orderly (empty capacity) candidates := by
  have hinit : (empty capacity).RetainsRecent :=
    ⟨fun key => by simp [empty, recent], Nat.le_refl _⟩
  have hinv : ∀ (aged : AgedRegistry) candidate,
      1 ≤ aged.registry.capacity ∧ aged.order.Nodup →
        1 ≤ (aged.step candidate).registry.capacity ∧ (aged.step candidate).order.Nodup :=
    fun aged candidate h => ⟨h.1, nodup_step h.2 candidate⟩
  exact TransitionSystem.forall_run_iff hinv
    (fun aged candidate h hrecent => retainsRecent_step_iff h.1 hrecent h.2 candidate)
    ⟨hpos, List.nodup_nil⟩ hinit candidates

section Examples

/-- An attempt under the given key. -/
def attemptOf (request : AdmissionRequestId) (demand : DemandId) : AttemptRecord :=
  { request, demand, attempt := 1 }

/-- Three attempts in the order of their keys, with room for two: the first one goes. -/
theorem retainsRecent_ascending :
    let last := TransitionSystem.run step (empty 2) [attemptOf 1 1, attemptOf 2 2, attemptOf 0 3]
    last.RetainsRecent ∧ last.recent = [(3, 1), (2, 1)] := by
  refine ⟨(retainsRecent_run_iff (by decide) [attemptOf 1 1, attemptOf 2 2, attemptOf 0 3]).mpr
    ⟨⟨?_, ?_⟩, ⟨?_, ?_⟩, ⟨?_, ?_⟩, trivial⟩ 3, by decide +kernel⟩
  · exact Or.inr (Or.inl (by decide +kernel))
  · exact Or.inr (Or.inr (by decide +kernel))
  · exact Or.inr (Or.inl (by decide +kernel))
  · exact Or.inr (Or.inr (by decide +kernel))
  · rw [ExtTreeMap.minKey?_eq_head?_keys]
    exact Or.inr (Or.inr (by decide +kernel))
  · exact Or.inl rfl

theorem attempts_step_full {aged : AgedRegistry} (candidate : AttemptRecord)
    (smallest : DemandId × AttemptId) (hnew : candidate.key ∉ aged.registry.attempts)
    (hfull : aged.registry.attempts.size = aged.registry.capacity)
    (hmin : aged.registry.attempts.keys.head? = some smallest) :
    (aged.step candidate).registry.attempts =
      (aged.registry.attempts.erase smallest).insert candidate.key candidate :=
  AttemptRegistry.attempts_record_full hnew hfull (ExtTreeMap.minKey?_eq_head?_keys.trans hmin)

/-- With room for two attempts, the third removes the second and keeps the first, because the key
of the second is smaller. With room for one attempt, two request identities are kept. -/
theorem newer_attempt_forgotten :
    (∃ aged, aged = TransitionSystem.run step (empty 2)
        [attemptOf 0 5, attemptOf 0 3, attemptOf 0 4] ∧
      aged.recent = [(4, 1), (3, 1)] ∧ aged.registry.attempts.keys = [(4, 1), (5, 1)]) ∧
    ∃ aged, aged = TransitionSystem.run step (empty 1) [attemptOf 1 1, attemptOf 2 2] ∧
      aged.registry.attempts.size = 1 ∧ aged.registry.requestFingerprints.size = 2 := by
  refine ⟨⟨((empty 2).step (attemptOf 0 5)).step (attemptOf 0 3) |>.step (attemptOf 0 4), rfl,
    by decide +kernel, ?_⟩, ⟨((empty 1).step (attemptOf 1 1)).step (attemptOf 2 2), rfl, ?_,
    by decide +kernel⟩⟩
  · rw [attempts_step_full _ (3, 1) (by decide +kernel) (by decide +kernel)
      (by decide +kernel)]
    decide +kernel
  · rw [attempts_step_full _ (1, 1) (by decide +kernel) (by decide +kernel)
      (by decide +kernel)]
    decide +kernel

end Examples

end AgedRegistry

end AdmissionFabric
