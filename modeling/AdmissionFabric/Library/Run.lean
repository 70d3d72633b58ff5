import Mathlib.Init

/-!
# Guarded runs of a transition system

A system moves from state to state by events, and a guard says which events are allowed in which
state. An invariant is proved once for the initial states and once for an allowed step.
-/

namespace TransitionSystem

universe u v

variable {σ : Type u} {ε : Type v}

/-- The state after a list of events. -/
def run (step : σ → ε → σ) (s : σ) (events : List ε) : σ := events.foldl step s

/-- Whether each event of a list is allowed in the state it happens in. -/
def Allowed (step : σ → ε → σ) (guard : σ → ε → Prop) : σ → List ε → Prop
  | _, [] => True
  | s, e :: es => guard s e ∧ Allowed step guard (step s e) es

instance Allowed.decidable (step : σ → ε → σ) (guard : σ → ε → Prop)
    [∀ s e, Decidable (guard s e)] :
    ∀ (s : σ) (events : List ε), Decidable (Allowed step guard s events)
  | _, [] => inferInstanceAs (Decidable True)
  | s, e :: es =>
    have := Allowed.decidable step guard (step s e) es
    inferInstanceAs (Decidable (guard s e ∧ Allowed step guard (step s e) es))

/-- The states that runs reach when every event is allowed by the guard. -/
inductive Reachable (initial : σ → Prop) (step : σ → ε → σ) (guard : σ → ε → Prop) : σ → Prop
  | init {s : σ} (h : initial s) : Reachable initial step guard s
  | step {s : σ} (e : ε) (h : Reachable initial step guard s) (hguard : guard s e) :
      Reachable initial step guard (step s e)

variable {initial : σ → Prop} {step : σ → ε → σ} {guard : σ → ε → Prop}

/-- What holds initially and is kept by every allowed step holds in every reachable state. -/
theorem Reachable.invariant {I : σ → Prop} (hinit : ∀ s, initial s → I s)
    (hstep : ∀ s e, I s → guard s e → I (step s e)) {s : σ}
    (h : Reachable initial step guard s) : I s := by
  induction h with
  | init h => exact hinit _ h
  | step e _ hguard ih => exact hstep _ e ih hguard

/-- A list of allowed events leads from a reachable state to a reachable one. -/
theorem Reachable.run {s : σ} (h : Reachable initial step guard s) {events : List ε}
    (hevents : Allowed step guard s events) :
    Reachable initial step guard (TransitionSystem.run step s events) := by
  induction events generalizing s with
  | nil => exact h
  | cons e es ih => exact ih (h.step e hevents.1) hevents.2

/-- If exactly the allowed events keep a property, then it holds in every state of a run if and
only if every event of the run is allowed. The invariant `J` may be used on the way. -/
theorem forall_run_iff {I J : σ → Prop} (hinv : ∀ s e, J s → J (step s e))
    (hstep : ∀ s e, J s → I s → (I (step s e) ↔ guard s e)) {s : σ} (hJ : J s) (hI : I s)
    (events : List ε) :
    (∀ n, I (TransitionSystem.run step s (events.take n))) ↔ Allowed step guard s events := by
  induction events generalizing s with
  | nil => simpa [TransitionSystem.run, Allowed] using hI
  | cons e es ih =>
    constructor
    · intro hall
      have hnext : I (step s e) := hall 1
      exact ⟨(hstep s e hJ hI).mp hnext,
        (ih (hinv s e hJ) hnext).mp fun n => hall (n + 1)⟩
    · rintro ⟨hguard, hrest⟩ n
      have hnext := (hstep s e hJ hI).mpr hguard
      cases n with
      | zero => exact hI
      | succ n => exact (ih (hinv s e hJ) hnext).mpr hrest n

end TransitionSystem
