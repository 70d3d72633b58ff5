import AdmissionFabric.Library.LittleEndian

/-!
# Self-delimiting codes

A code is self-delimiting if a word of it can be told apart from what is written behind it. A
stream that concatenates such words determines all of them, so it can be compared field by field.
-/

/-- Whatever is written behind them, different values have different words. -/
def SelfDelimiting {α β : Type} (code : α → List β) : Prop :=
  ∀ a a' s s', code a ++ s = code a' ++ s' → a = a' ∧ s = s'

namespace SelfDelimiting

variable {α β : Type}

/-- A code of fixed length is self-delimiting if it is injective. -/
theorem of_length {code : α → List β} {n : Nat} (hlength : ∀ a, (code a).length = n)
    (hinjective : ∀ a a', code a = code a' → a = a') : SelfDelimiting code := by
  intro a a' s s' h
  obtain ⟨hcode, rfl⟩ := List.append_inj h ((hlength a).trans (hlength a').symm)
  exact ⟨hinjective a a' hcode, rfl⟩

variable {code : α → List β} {s s' : List β}

theorem append_inj_iff (h : SelfDelimiting code) {a a' : α} :
    code a ++ s = code a' ++ s' ↔ a = a' ∧ s = s' := by
  refine ⟨h a a' s s', ?_⟩
  rintro ⟨rfl, rfl⟩
  rfl

/-- Two lists of the same length are compared by their words. -/
theorem flatMap_append_inj_iff (h : SelfDelimiting code) {l l' : List α}
    (hlength : l.length = l'.length) :
    l.flatMap code ++ s = l'.flatMap code ++ s' ↔ l = l' ∧ s = s' := by
  induction l generalizing l' with
  | nil =>
    obtain rfl := List.length_eq_zero_iff.mp hlength.symm
    simp
  | cons a l ih =>
    cases l' with
    | nil => cases hlength
    | cons a' l' =>
      rw [List.flatMap_cons, List.flatMap_cons, List.append_assoc, List.append_assoc,
        h.append_inj_iff, ih (Nat.succ.inj hlength), List.cons.injEq, and_assoc]

end SelfDelimiting

namespace LittleEndian

/-- Numbers that fit the width are told apart by their bytes. -/
theorem leBytes_append_inj_iff {width n n' : Nat} {s s' : List UInt8} (hn : n < 256 ^ width)
    (hn' : n' < 256 ^ width) :
    leBytes width n ++ s = leBytes width n' ++ s' ↔ n = n' ∧ s = s' := by
  constructor
  · intro h
    obtain ⟨hbytes, rfl⟩ := List.append_inj h (by simp)
    have hvalue := congrArg ofLeBytes hbytes
    rw [ofLeBytes_leBytes, ofLeBytes_leBytes, Nat.mod_eq_of_lt hn, Nat.mod_eq_of_lt hn'] at hvalue
    exact ⟨hvalue, rfl⟩
  · rintro ⟨rfl, rfl⟩
    rfl

theorem counted_append_inj_iff {α : Type} {code : α → List UInt8} (h : SelfDelimiting code)
    {width : Nat} {l l' : List α} {s s' : List UInt8} (hl : l.length < 256 ^ width)
    (hl' : l'.length < 256 ^ width) :
    leBytes width l.length ++ (l.flatMap code ++ s) =
        leBytes width l'.length ++ (l'.flatMap code ++ s') ↔ l = l' ∧ s = s' := by
  rw [leBytes_append_inj_iff hl hl']
  constructor
  · rintro ⟨hlength, hrest⟩
    exact (h.flatMap_append_inj_iff hlength).mp hrest
  · rintro ⟨rfl, rfl⟩
    exact ⟨rfl, rfl⟩

end LittleEndian
