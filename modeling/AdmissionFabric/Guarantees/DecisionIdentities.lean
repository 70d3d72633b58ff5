import AdmissionFabric.Engine.Identities

/-!
# Decision identities are not used twice

Decision identities are counted in memory. A restart recomputes the counter from what it finds in
the journal, so an identity stays used only as long as the journal has a frame that says so.

Two things are forgotten. The recovery looks at commits and refusals alone: the identity of an
intent whose commit was cut off is assigned again, although the intent is in the journal. And a
compaction writes only the records that the history still retains: when the newest records were
retired before it, their identities are assigned again after the next restart.
-/

namespace AdmissionFabric

/-! ### Runs -/

/-- What happens to a coordinator: it serves a call, or it crashes during one, so that the call
never returns, and a new process opens what is left of the journal. -/
inductive Turn
  | served (call : Call)
  | crashed (call : Call) (config : EngineConfig) (surviving : Nat) (disk : List DiskOutcome)

/-- A coordinator with the identities that were returned to a caller or written to the journal. -/
structure IdentityRoll where
  core : EngineCore
  used : List AdmissionDecisionId := []

/-- The identity of a decision that a call returns. -/
def returnedIdentity : Answer → List AdmissionDecisionId
  | .decision (.ok decision) => [decision.decision]
  | _ => []

namespace IdentityRoll

open EngineCore (Remembers)
open TransitionSystem

variable {call : Call} {core : EngineCore} {used : List AdmissionDecisionId}

/-- The roll after a turn. -/
def follow (roll : IdentityRoll) : Turn → IdentityRoll
  | .served call =>
    let result := (roll.core.onDisk call.disk).perform call.operation
    { core := result.2
      used := roll.used ++ returnedIdentity result.1 ++ namedIn result.2.records }
  | .crashed call config surviving disk =>
    let restarted := (roll.core.after call).restart config surviving disk
    { core := restarted.2
      used := roll.used ++ namedIn restarted.2.records }

/-- A compaction on request finds a listed record that is at least as new as everything the
journal names. A recovery succeeds and finds a decision frame that is at least as new as
everything that the journal named before the call in progress, and everything that survives. -/
def Recorded (roll : IdentityRoll) : Turn → Prop
  | .served ⟨.compactJournal, _⟩ => ∀ id ∈ namedIn roll.core.records,
      ∃ record ∈ roll.core.history.inAuditOrder, id ≤ record.decision
  | .served _ => True
  | .crashed call config surviving disk =>
    ((roll.core.after call).restart config surviving disk).1.status = none ∧
      ∃ journal ∈ (roll.core.after call).journal,
        ∀ id ∈ namedIn roll.core.records ++ namedIn (journal.cut surviving).records,
          ∃ decided ∈ decidedIn (journal.cut surviving).records, id ≤ decided

/-- A coordinator that has opened a new journal. -/
def Starting (roll : IdentityRoll) : Prop :=
  roll.used = [] ∧ ∃ config journal, journal.records = [] ∧
    (EngineCore.boot config journal).1.status = none ∧
      roll.core = (EngineCore.boot config journal).2

theorem Starting.remembers {roll : IdentityRoll} (h : roll.Starting) :
    roll.core.Remembers roll.used := by
  obtain ⟨hused, config, journal, hrecords, hstatus, hcore⟩ := h
  have hboot := EngineCore.remembers_boot [] hstatus (by simp [hrecords, namedIn])
  rw [hused, hcore]
  exact ⟨hboot.durable, by simp, hboot.below, hboot.cached, hboot.recorded, hboot.held⟩

theorem remembers_append {added : List AdmissionDecisionId} (h : core.Remembers used)
    (hadded : ∀ id ∈ added, core.Covers id) : core.Remembers (used ++ added) :=
  ⟨h.durable, fun id hid => (List.mem_append.mp hid).elim (h.covered id) (hadded id), h.below,
    h.cached, h.recorded, h.held⟩

theorem remembers_onDisk (h : core.Remembers used) (disk : List DiskOutcome) :
    (core.onDisk disk).Remembers used := by
  have hrecords := core.records_onDisk disk
  have hcovers : (core.onDisk disk).Covers = core.Covers := by
    funext id
    rw [EngineCore.Covers, hrecords, EngineCore.Covers]
  exact ⟨h.durable.onDisk disk, hcovers ▸ h.covered, by rw [hrecords]; exact h.below,
    by rw [hcovers]; exact h.cached, by rw [hcovers]; exact h.recorded,
    by rw [hcovers]; exact h.held⟩

theorem remembers_served {roll : IdentityRoll} (h : roll.core.Remembers roll.used)
    (hguard : roll.Recorded (.served call)) :
    (roll.follow (.served call)).core.Remembers (roll.follow (.served call)).used := by
  obtain ⟨operation, disk⟩ := call
  have hdisk := remembers_onDisk h disk
  have hperformed : ((roll.core.onDisk disk).perform operation).2.Remembers roll.used := by
    refine (EngineCore.transactional_remembers roll.used).perform
      (EngineCore.ofStores_remembers roll.used) hdisk ?_
    rintro rfl
    refine hdisk.compact ?_
    rw [EngineCore.records_onDisk]
    exact hguard
  refine remembers_append (remembers_append hperformed ?_) fun id hid => ⟨id, hid, le_rfl⟩
  intro id hid
  cases operation with
  | admitRequest request claim =>
    change id ∈ returnedIdentity (.decision ((roll.core.onDisk disk).admitLocked request claim).1)
      at hid
    rcases hanswer : ((roll.core.onDisk disk).admitLocked request claim).1 with status | decision
    · rw [hanswer] at hid
      cases hid
    · rw [hanswer] at hid
      rw [List.mem_singleton.mp hid]
      exact hdisk.covers_answer hanswer
  | _ => cases hid

theorem remembers_crashed {roll : IdentityRoll} (h : roll.core.Remembers roll.used)
    {config : EngineConfig} {surviving : Nat} {disk : List DiskOutcome}
    (hguard : roll.Recorded (.crashed call config surviving disk)) :
    (roll.follow (.crashed call config surviving disk)).core.Remembers
      (roll.follow (.crashed call config surviving disk)).used := by
  obtain ⟨hstatus, journal, hjournal, hdecided⟩ := hguard
  have hrestart : (roll.core.after call).restart config surviving disk =
      EngineCore.boot config { journal.cut surviving with disk } := by
    rw [EngineCore.restart, Option.mem_def.mp hjournal]
  rw [hrestart] at hstatus
  rw [follow, hrestart]
  refine EngineCore.remembers_boot roll.used hstatus fun id hid => ?_
  rcases List.mem_append.mp hid with hid | hid
  · obtain ⟨named, hnamed, hle⟩ := h.covered id hid
    obtain ⟨decided, hmem, hle'⟩ := hdecided named (List.mem_append_left _ hnamed)
    exact ⟨decided, hmem, Nat.le_trans hle hle'⟩
  · exact hdecided id (List.mem_append_right _ hid)

theorem remembers_follow {roll : IdentityRoll} (h : roll.core.Remembers roll.used) {turn : Turn}
    (hguard : roll.Recorded turn) :
    (roll.follow turn).core.Remembers (roll.follow turn).used := by
  cases turn with
  | served call => exact remembers_served h hguard
  | crashed call config surviving disk => exact remembers_crashed h hguard

/-- In every run that keeps the identities recorded, the identity of the next decision was never
returned to a caller and never written to the journal. -/
theorem unused_of_reachable {roll : IdentityRoll}
    (h : Reachable Starting IdentityRoll.follow Recorded roll) (request : AdmissionRequest)
    (claim : ClaimContext) (outcome : AdmissionOutcome) :
    (roll.core.newDecision request claim outcome).decision ∉ roll.used := by
  have hremembers : roll.core.Remembers roll.used :=
    h.invariant (I := fun roll => roll.core.Remembers roll.used) (fun _ => Starting.remembers)
      fun _ _ hroll => remembers_follow hroll
  intro hmem
  exact Nat.lt_irrefl _ (hremembers.lt_of_covers (hremembers.covered _ hmem))

section Examples

instance (roll : IdentityRoll) (turn : Turn) : Decidable (roll.Recorded turn) := by
  unfold Recorded
  split <;> infer_instance

/-- The roll of a new engine. -/
def startedRoll (config : EngineConfig) : IdentityRoll := { core := (EngineCore.boot config {}).2 }

theorem starting_startedRoll : (startedRoll { epoch := 0 }).Starting :=
  ⟨rfl, { epoch := 0 }, {}, rfl, by decide +kernel, rfl⟩

/-- A request for twenty units of the only resource. -/
def smallRequest (id : UInt64) : AdmissionRequest :=
  SmallFabric.request id { minimum := 1, desired := 20, maximum := 20 } [1]

/-- Announce one resource and serve a first admission. -/
def firstTurns : List Turn :=
  (SmallFabric.announce [SmallFabric.known 1 1 100] ++
    [Operation.admitRequest (smallRequest 1) {}]).map fun operation => .served { operation }

/-- A crash during the second admission that keeps the first bytes of the file. -/
def crashedSecond (surviving : Nat) : Turn :=
  .crashed { operation := .admitRequest (smallRequest 2) {} } { epoch := 0 } surviving []

/-- Two admissions, the second interrupted behind its commit; a compaction and a restart. -/
def recordedTurns : List Turn :=
  firstTurns ++ [crashedSecond 748, .served { operation := .compactJournal },
    .crashed { operation := .advanceTick 0 } { epoch := 0 } 1000 []]

/-- The third decision after all that. -/
theorem unused_recordedTurns :
    ((run IdentityRoll.follow (startedRoll { epoch := 0 }) recordedTurns).core.newDecision
        (smallRequest 3) {} .admitted).decision ∉
      (run IdentityRoll.follow (startedRoll { epoch := 0 }) recordedTurns).used := by
  have hallowed : Allowed IdentityRoll.follow Recorded (startedRoll { epoch := 0 })
      recordedTurns := by
    decide +kernel
  have hstart : Reachable Starting IdentityRoll.follow Recorded (startedRoll { epoch := 0 }) :=
    .init starting_startedRoll
  exact unused_of_reachable (hstart.run hallowed) _ _ _

/-- The record of the refusal is retired at once, and the compaction drops its identity. -/
def retiredTurns : List Turn :=
  firstTurns ++ [.served { operation := .admitRequest (smallRequest 0) {} },
    .served { operation := .compactJournal },
    .crashed { operation := .advanceTick 0 } { epoch := 0, historyCapacity := 1 } 1000 []]

/-- The intent of the second decision survives a crash and its commit does not. -/
def intentRoll : IdentityRoll :=
  run IdentityRoll.follow (startedRoll { epoch := 0 }) (firstTurns ++ [crashedSecond 571])

/-- The second decision was refused and retired before a compaction: likewise. -/
def retiredRoll : IdentityRoll :=
  run IdentityRoll.follow (startedRoll { epoch := 0, historyCapacity := 1 }) retiredTurns

theorem used_again :
    (intentRoll.core.newDecision (smallRequest 3) {} .admitted).decision ∈ intentRoll.used ∧
      (retiredRoll.core.newDecision (smallRequest 3) {} .admitted).decision ∈ retiredRoll.used := by
  constructor <;> decide +kernel

end Examples

end IdentityRoll

end AdmissionFabric
