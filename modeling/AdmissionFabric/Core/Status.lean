import Mathlib.Algebra.Ring.Nat
import Mathlib.Data.List.Sort

/-!
# Status values and ordered validation loops

A call that cannot produce its result returns a `Status`: a machine-readable code and a message.
`Status::ok()` is `Except.ok ()` here, and `Expected<T>` is `Except Status T`.

Most validators of the source walk over a list whose identities must be known and strictly
increasing, and run a few further checks on each element. `checkIncreasing` is that loop;
`checkIncreasing_eq_ok_iff` says what it accepts.

Source: `include/naf/core/status.hpp`.
-/

namespace AdmissionFabric

variable (condition : Prop)

/-- Machine-readable failure taxonomy. -/
inductive StatusCode
  | invalidArgument
  | malformedInput
  | oversizedInput
  | unknownResource
  | unknownPath
  | duplicateIdentity
  | conflictIdentity
  | staleGeneration
  | epochMismatch
  | fenced
  | notFound
  | alreadyExists
  | arithmeticOverflow
  | arithmeticUnderflow
  | capacityViolation
  | authorityViolation
  | durableFailure
  | corruptJournal
  | truncatedFrame
  | oversizedFrame
  | protocolViolation
  | transportFailure
  | unsupported
  | shuttingDown
  | busy
  | internal
  deriving DecidableEq, Repr

/-- A failure: its code and its message. -/
structure Status where
  code : StatusCode
  message : String
  deriving DecidableEq, Repr

/-- The status of an input that breaks its contract. -/
def malformed (message : String) : Status := ⟨.malformedInput, message⟩

/-- The status of an input beyond its bound. -/
def oversized (message : String) : Status := ⟨.oversizedInput, message⟩

/-- Refuse with `error` when `condition` holds. -/
def rejectIf {ε : Type} (condition : Prop) [Decidable condition] (error : ε) : Except ε Unit :=
  if condition then .error error else .ok ()

@[simp] theorem rejectIf_eq_ok_iff {ε : Type} [Decidable condition] (error : ε) :
    rejectIf condition error = .ok () ↔ ¬ condition := by
  unfold rejectIf
  split <;> simp_all

theorem check_bind_eq_ok_iff {ε β : Type} (x : Except ε Unit) (f : Unit → Except ε β) (b : β) :
    (x >>= f) = .ok b ↔ x = .ok () ∧ f () = .ok b := by
  cases x <;> simp [bind, Except.bind]

theorem bind_eq_ok_iff {ε α β : Type} (x : Except ε α) (f : α → Except ε β) (b : β) :
    (x >>= f) = .ok b ↔ ∃ a, x = .ok a ∧ f a = .ok b := by
  cases x <;> simp [bind, Except.bind]

theorem forM_eq_ok_iff {ε α : Type} (xs : List α) (f : α → Except ε Unit) :
    xs.forM f = .ok () ↔ ∀ x ∈ xs, f x = .ok () := by
  induction xs with
  | nil => simp [pure, Except.pure]
  | cons x xs ih =>
    change (f x >>= fun _ => xs.forM f) = .ok () ↔ _
    rw [check_bind_eq_ok_iff, ih, List.forall_mem_cons]

/-! ### What a check can fail with -/

/-- Every failure of a computation has a property. -/
def FailsWith {ε α : Type} (P : ε → Prop) (x : Except ε α) : Prop :=
  ∀ e, x = .error e → P e

section FailsWith

variable {ε α β : Type} {P : ε → Prop}

@[simp] theorem failsWith_ok (a : α) : FailsWith P (.ok a : Except ε α) := by
  simp [FailsWith]

@[simp] theorem failsWith_pure (a : α) : FailsWith P (pure a : Except ε α) := failsWith_ok a

@[simp] theorem failsWith_error (e : ε) : FailsWith P (.error e : Except ε α) ↔ P e := by
  simp [FailsWith]

@[simp] theorem failsWith_rejectIf [Decidable condition] (e : ε) :
    FailsWith P (rejectIf condition e) ↔ (condition → P e) := by
  by_cases h : condition <;> simp [rejectIf, h]

theorem failsWith_bind {x : Except ε α} {f : α → Except ε β} :
    FailsWith P (x >>= f) ↔ FailsWith P x ∧ ∀ a, x = .ok a → FailsWith P (f a) := by
  cases x <;> simp [bind, Except.bind]

@[simp] theorem failsWith_map {x : Except ε α} {f : α → β} :
    FailsWith P (f <$> x) ↔ FailsWith P x := by
  cases x <;> simp [Functor.map, Except.map]

theorem FailsWith.imp {Q : ε → Prop} {x : Except ε α} (h : FailsWith P x) (hPQ : ∀ e, P e → Q e) :
    FailsWith Q x :=
  fun e he => hPQ e (h e he)

theorem FailsWith.forM {f : α → Except ε Unit} (h : ∀ a, FailsWith P (f a)) (xs : List α) :
    FailsWith P (xs.forM f) := by
  induction xs with
  | nil => exact failsWith_pure ()
  | cons x xs ih =>
    exact failsWith_bind.mpr ⟨h x, fun _ _ => ih⟩

end FailsWith

/-! ### Loops over strictly increasing identities -/

section CheckIncreasing

variable {α : Type*} (key : α → UInt64) (unknown order : Status)
  (body : α → Except Status Unit)

/-- Walk over a list, refusing an unknown or a not strictly increasing identity and running
`body` on each element. The first argument is the identity of the element before. -/
def checkIncreasing : Option UInt64 → List α → Except Status Unit
  | _, [] => .ok ()
  | previous, x :: xs => do
    rejectIf (key x = 0) unknown
    rejectIf (∃ p ∈ previous, key x ≤ p) order
    body x
    checkIncreasing (some (key x)) xs

/-- The loop accepts the increasing lists of known identities whose elements pass `body`. -/
theorem checkIncreasing_eq_ok_iff (previous : Option UInt64) (xs : List α) :
    checkIncreasing key unknown order body previous xs = .ok () ↔
      (∀ p ∈ previous, ∀ x ∈ xs, p < key x) ∧ xs.Pairwise (fun x y => key x < key y) ∧
        ∀ x ∈ xs, key x ≠ 0 ∧ body x = .ok () := by
  induction xs generalizing previous with
  | nil => simp [checkIncreasing]
  | cons x xs ih =>
    simp only [checkIncreasing, check_bind_eq_ok_iff, rejectIf_eq_ok_iff, ih, List.mem_cons,
      List.pairwise_cons]
    constructor
    · rintro ⟨h0, hp, hb, hlt, hxs, hall⟩
      have hgt : ∀ p ∈ previous, p < key x := by
        intro p hpm
        exact UInt64.not_le.mp fun h => hp ⟨p, hpm, h⟩
      refine ⟨?_, ⟨fun y hy => hlt (key x) rfl y hy, hxs⟩, ?_⟩
      · rintro p hpm y (rfl | hy)
        · exact hgt p hpm
        · exact UInt64.lt_trans (hgt p hpm) (hlt (key x) rfl y hy)
      · rintro y (rfl | hy)
        · exact ⟨h0, hb⟩
        · exact hall y hy
    · rintro ⟨hlt, ⟨hx, hxs⟩, hall⟩
      refine ⟨(hall x (Or.inl rfl)).1, ?_, (hall x (Or.inl rfl)).2, ?_, hxs,
        fun y hy => hall y (Or.inr hy)⟩
      · rintro ⟨p, hpm, hle⟩
        exact UInt64.not_le.mpr (hlt p hpm x (Or.inl rfl)) hle
      · rintro p hpm y hy
        cases hpm
        exact hx y hy

theorem checkIncreasing_none_eq_ok_iff (xs : List α) :
    checkIncreasing key unknown order body none xs = .ok () ↔
      xs.Pairwise (fun x y => key x < key y) ∧ ∀ x ∈ xs, key x ≠ 0 ∧ body x = .ok () := by
  simp [checkIncreasing_eq_ok_iff]

end CheckIncreasing

end AdmissionFabric
