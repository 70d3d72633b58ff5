import AdmissionFabric.Engine.Decision

/-!
# Adding references to an authority vector

A reference to a known subject is merged into the one that the vector has, by the last-element
fast path or by the scan; one to a new subject is appended, or dropped when the vector is full.
In a vector without duplicates the two ways to merge do the same.

Source: `src/authority/authority.cpp`.
-/

namespace AdmissionFabric

namespace AuthorityVector

variable {refs : List AuthorityRef}

/-- What a reference is about. -/
def key (ref : AuthorityRef) : AuthorityKind × Nat := (ref.kind, ref.subject)

theorem mergeFirst_eq_none_iff {kind : AuthorityKind} {subject : Nat} {generation : Generation}
    {epoch : FabricEpoch} :
    mergeFirst kind subject generation epoch refs = none ↔ (kind, subject) ∉ refs.map key := by
  induction refs with
  | nil => simp [mergeFirst]
  | cons ref rest ih =>
    unfold mergeFirst
    split
    · rename_i hsame
      simp [key, hsame]
    · rename_i hdiff
      rw [Option.map_eq_none_iff, ih, List.map_cons, List.mem_cons, not_or]
      refine ⟨fun h => ⟨fun heq => ?_, h⟩, And.right⟩
      obtain ⟨rfl, rfl⟩ := Prod.mk.inj heq
      exact hdiff ⟨rfl, rfl⟩

theorem map_key_mergeFirst {kind : AuthorityKind} {subject : Nat} {generation : Generation}
    {epoch : FabricEpoch} {refs' : List AuthorityRef}
    (h : mergeFirst kind subject generation epoch refs = some refs') :
    refs'.map key = refs.map key := by
  induction refs generalizing refs' with
  | nil => cases h
  | cons ref rest ih =>
    unfold mergeFirst at h
    split at h
    · obtain rfl := Option.some.inj h
      rfl
    · obtain ⟨merged, hmerged, rfl⟩ := Option.map_eq_some_iff.mp h
      rw [List.map_cons, List.map_cons, ih hmerged]

theorem add_cases (vector : AuthorityVector) (kind : AuthorityKind) (subject : Nat)
    (generation : Generation) (epoch : FabricEpoch) :
    ((kind, subject) ∈ vector.refs.map key ∧
        (vector.add kind subject generation epoch).refs.map key = vector.refs.map key) ∨
      ((kind, subject) ∉ vector.refs.map key ∧
        vector.add kind subject generation epoch =
          if vector.refs.length ≥ Limits.maxAuthorityRefs then { vector with truncated := true }
          else { vector with refs := vector.refs ++ [⟨kind, subject, generation, epoch⟩] }) := by
  have hscan : add.addByScan vector kind subject generation epoch =
      vector.add kind subject generation epoch →
      ((kind, subject) ∈ vector.refs.map key ∧
        (vector.add kind subject generation epoch).refs.map key = vector.refs.map key) ∨
      ((kind, subject) ∉ vector.refs.map key ∧
        vector.add kind subject generation epoch =
          if vector.refs.length ≥ Limits.maxAuthorityRefs then { vector with truncated := true }
          else { vector with refs := vector.refs ++ [⟨kind, subject, generation, epoch⟩] }) := by
    intro heq
    rw [← heq]
    unfold add.addByScan
    split
    · rename_i refs hmerged
      refine Or.inl ⟨?_, map_key_mergeFirst hmerged⟩
      refine Decidable.byContradiction fun hnot => ?_
      rw [mergeFirst_eq_none_iff.mpr hnot] at hmerged
      cases hmerged
    · rename_i hnone
      exact Or.inr ⟨mergeFirst_eq_none_iff.mp hnone, rfl⟩
  unfold add at hscan ⊢
  split
  · rename_i last hlast
    split
    · rename_i hsame
      obtain ⟨init, hinit⟩ := List.getLast?_eq_some_iff.mp hlast
      refine Or.inl ⟨?_, ?_⟩
      · rw [hinit, List.map_append, List.mem_append]
        exact Or.inr (by simp [key, hsame])
      · rw [hinit]
        simp [merge, key]
    · rename_i hdiff
      simp only [hlast, hdiff, ↓reduceIte] at hscan
      exact hscan trivial
  · rename_i hnone
    simp only [hnone] at hscan
    exact hscan trivial

/-- The references after one was merged into that of the same subject. -/
def mergeAt (kind : AuthorityKind) (subject : Nat) (generation : Generation) (epoch : FabricEpoch)
    (ref : AuthorityRef) : AuthorityRef :=
  if key ref = (kind, subject) then merge ref generation epoch else ref

section Merge

variable {kind : AuthorityKind} {subject : Nat} {generation : Generation} {epoch : FabricEpoch}

theorem map_mergeAt_of_notMem (h : (kind, subject) ∉ refs.map key) :
    refs.map (mergeAt kind subject generation epoch) = refs := by
  refine (List.map_congr_left fun ref href => ?_).trans (List.map_id refs)
  have hne : key ref ≠ (kind, subject) := fun heq => h (heq ▸ List.mem_map_of_mem href)
  rw [mergeAt, if_neg hne]
  rfl

theorem mergeFirst_of_mem (hnodup : (refs.map key).Nodup) (hmem : (kind, subject) ∈ refs.map key) :
    mergeFirst kind subject generation epoch refs =
      some (refs.map (mergeAt kind subject generation epoch)) := by
  induction refs with
  | nil => cases hmem
  | cons ref rest ih =>
    rw [List.map_cons, List.nodup_cons] at hnodup
    unfold mergeFirst
    by_cases hsame : ref.kind = kind ∧ ref.subject = subject
    · have hkey : key ref = (kind, subject) := Prod.ext hsame.1 hsame.2
      rw [if_pos hsame, List.map_cons, mergeAt, if_pos hkey,
        map_mergeAt_of_notMem (hkey ▸ hnodup.1)]
    · have hkey : key ref ≠ (kind, subject) := fun heq => hsame (Prod.mk.inj heq)
      have hrest : (kind, subject) ∈ rest.map key := by
        rw [List.map_cons, List.mem_cons] at hmem
        exact hmem.resolve_left (Ne.symm hkey)
      rw [if_neg hsame, ih hnodup.2 hrest, List.map_cons, mergeAt, if_neg hkey]
      rfl

theorem add_of_mem {vector : AuthorityVector} (hnodup : (vector.refs.map key).Nodup)
    (hmem : (kind, subject) ∈ vector.refs.map key) :
    vector.add kind subject generation epoch =
      { vector with refs := vector.refs.map (mergeAt kind subject generation epoch) } := by
  have hscan : add.addByScan vector kind subject generation epoch =
      { vector with refs := vector.refs.map (mergeAt kind subject generation epoch) } := by
    rw [add.addByScan, mergeFirst_of_mem hnodup hmem]
  unfold add
  cases hlast : vector.refs.getLast? with
  | none => exact hscan
  | some last =>
    by_cases hsame : last.kind = kind ∧ last.subject = subject
    · obtain ⟨init, hinit⟩ := List.getLast?_eq_some_iff.mp hlast
      have hkey : key last = (kind, subject) := Prod.ext hsame.1 hsame.2
      have hinitfree : (kind, subject) ∉ init.map key := by
        rw [hinit, List.map_append, List.nodup_append] at hnodup
        exact fun hin => hnodup.2.2 _ hin _ (by simp [hkey]) rfl
      simp only [hsame, and_self, ↓reduceIte, hinit, List.dropLast_concat, List.map_append,
        List.map_cons, List.map_nil, map_mergeAt_of_notMem hinitfree, mergeAt, hkey]
    · simp only [hsame, ↓reduceIte]
      exact hscan

end Merge

end AuthorityVector

end AdmissionFabric
