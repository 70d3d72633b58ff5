import AdmissionFabric.Engine.Announced
import AdmissionFabric.Engine.RecoverySpec
import AdmissionFabric.Engine.SmallFabric

/-!
# The lifetime of a coordinator

Over its lifetime a coordinator performs calls and is restarted. A restart is a crash, which cuts
the journal file to some length, followed by a new process that opens what is left. A crash in
the middle of a call is covered: the call is followed by a cut that takes away its last frames.
-/

namespace AdmissionFabric

/-- What happens to a coordinator. A restart has the configuration of the new process, the number
of bytes of the journal that survive the crash, and the outcomes of the disk accesses that opening
the journal makes. -/
inductive Event
  | call (call : Call)
  | restart (config : EngineConfig) (surviving : Nat) (disk : List DiskOutcome)

/-- Calls whose writes all succeed. -/
def Event.calls (operations : List Operation) : List Event :=
  operations.map fun operation => .call { operation }

namespace EngineCore

variable {status : Option Status} {core' : EngineCore} {core : EngineCore}

/-- The process that takes over after a crash, with the report of its recovery. -/
def restart (core : EngineCore) (config : EngineConfig) (surviving : Nat)
    (disk : List DiskOutcome) : RecoveryReport × EngineCore :=
  match core.journal with
  | none => ({}, EngineCore.fresh config)
  | some journal => boot config { journal.cut surviving with disk }

/-- The engine after an event. -/
def follow (core : EngineCore) : Event → EngineCore
  | .call call => core.after call
  | .restart config surviving disk => (core.restart config surviving disk).2

theorem reachable_performAll {initial : EngineCore → Prop}
    (h : TransitionSystem.Reachable initial follow (fun _ _ => True) core)
    (operations : List Operation) :
    TransitionSystem.Reachable initial follow (fun _ _ => True) (core.performAll operations) := by
  induction operations generalizing core with
  | nil => exact h
  | cons operation rest ih =>
    have hstep : TransitionSystem.Reachable initial follow (fun _ _ => True)
        (core.follow (.call { operation })) := h.step _ trivial
    exact ih hstep

theorem FinishEffect.announced {state : ReplayState} (h : FinishEffect core state status core')
    (hsessions : core.sessions = ∅) (hnonce : core.nextSessionNonce = 1) :
    core'.announced =
      { core.announced with epoch := core'.epoch, sessions := ∅, nextSessionNonce := 1 } := by
  cases h with
  | fenced _ =>
    rw [← hsessions, ← hnonce]
    rfl
  | unwritten _ _ | resumed _ _ => rfl

theorem RecoverEffect.announced {frames : List JournalFrame}
    (h : RecoverEffect core frames status core') (hsessions : core.sessions = ∅)
    (hnonce : core.nextSessionNonce = 1) :
    core'.announced = { core.announced with
      epoch := core'.epoch, policy := core'.policy, sessions := ∅, nextSessionNonce := 1 } := by
  cases h with
  | refused _ | unrestored _ _ =>
    rw [← hsessions, ← hnonce]
    rfl
  | restored _ _ hfinish =>
    have hannounced := hfinish.announced hsessions hnonce
    have hpolicy : core'.policy = _ := congrArg Announced.policy hannounced
    rw [hannounced, hpolicy]
    rfl

/-- A new process starts with a fencing identity and perhaps a policy, and nothing else. -/
theorem announced_boot (config : EngineConfig) (journal : Journal) :
    (boot config journal).2.announced = { (EngineCore.fresh config).announced with
      epoch := (boot config journal).2.epoch
      policy := (boot config journal).2.policy } := by
  have heffect := boot_effect config journal
  generalize (boot config journal).2 = core, (boot config journal).1.status = status at heffect ⊢
  cases heffect with
  | unopened _ | unread _ => rfl
  | read _ hrecover => exact hrecover.announced rfl rfl

end EngineCore

end AdmissionFabric
