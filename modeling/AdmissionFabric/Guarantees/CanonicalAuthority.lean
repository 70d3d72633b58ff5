import AdmissionFabric.Engine.AuthorityVector
import Mathlib.Data.List.Dedup
import Mathlib.Data.List.Induction
import Mathlib.Data.List.Perm.Lattice

/-!
# Authority vectors are canonical

However references are added to an authority vector, it has one for each subject, with the
strongest generation that was added. So it does not matter in which order they were added: the
digest sorts the references before it hashes them. This needs that all references to one subject
agree on the epoch, since a merged reference takes the epoch that was added last.

The vector is bounded. It is marked as truncated exactly if more subjects were added than it has
room for.
-/

namespace AdmissionFabric

namespace AuthorityVector

/-- The vector after adding references one after the other. -/
def ofCalls (calls : List AuthorityRef) : AuthorityVector := calls.foldl addRef {}

/-- The number of different subjects in a list of references. -/
def subjects (calls : List AuthorityRef) : Nat := (calls.map key).dedup.length

/-- One of the references, with the highest generation of all to its subject. -/
def Strongest (calls : List AuthorityRef) (ref : AuthorityRef) : Prop :=
  ref ∈ calls ∧ ∀ call ∈ calls, key call = key ref → call.generation ≤ ref.generation

/-- All references to one subject have the same epoch. -/
def AgreeOnEpochs (calls : List AuthorityRef) : Prop :=
  ∀ call ∈ calls, ∀ call' ∈ calls, key call = key call' → call.epoch = call'.epoch

variable {calls calls' : List AuthorityRef} {vector : AuthorityVector} {call ref : AuthorityRef}

theorem AgreeOnEpochs.perm (h : AgreeOnEpochs calls) (hperm : calls.Perm calls') :
    AgreeOnEpochs calls' := fun call hcall call' hcall' =>
  h call (hperm.mem_iff.mpr hcall) call' (hperm.mem_iff.mpr hcall')

theorem Strongest.perm_iff (hperm : calls.Perm calls') :
    Strongest calls ref ↔ Strongest calls' ref := by
  simp only [Strongest, hperm.mem_iff]

theorem length_le_subjects {keys : List (AuthorityKind × Nat)} (hnodup : keys.Nodup)
    (hsubset : keys ⊆ calls.map key) : keys.length ≤ subjects calls :=
  (List.subperm_of_subset hnodup fun _ hk => List.mem_dedup.mpr (hsubset hk)).length_le

theorem subjects_le {keys : List (AuthorityKind × Nat)} (hsubset : calls.map key ⊆ keys) :
    subjects calls ≤ keys.length :=
  (List.subperm_of_subset (List.nodup_dedup _) fun _ hk => hsubset (List.mem_dedup.mp hk)).length_le

/-! ### One addition -/

/-- What a vector keeps of the references that were added to it. -/
structure Tracks (calls : List AuthorityRef) (vector : AuthorityVector) : Prop where
  nodup : (vector.refs.map key).Nodup
  length_le : vector.refs.length ≤ Limits.maxAuthorityRefs
  named : vector.refs.map key ⊆ calls.map key
  complete : vector.truncated = false → calls.map key ⊆ vector.refs.map key
  strongest : AgreeOnEpochs calls → vector.truncated = false →
    ∀ ref ∈ vector.refs, Strongest calls ref
  crowded : vector.truncated = true → Limits.maxAuthorityRefs < subjects calls

theorem tracks_empty : Tracks [] {} where
  nodup := List.nodup_nil
  length_le := Nat.zero_le _
  named := List.Subset.refl _
  complete _ := List.Subset.refl _
  strongest _ _ _ href := (List.not_mem_nil href).elim
  crowded h := by cases h

theorem AgreeOnEpochs.of_append (h : AgreeOnEpochs (calls ++ [call])) : AgreeOnEpochs calls :=
  fun c hc c' hc' => h c (List.mem_append_left _ hc) c' (List.mem_append_left _ hc')

theorem Strongest.append (h : Strongest calls ref)
    (hcall : key call = key ref → call.generation ≤ ref.generation) :
    Strongest (calls ++ [call]) ref := by
  refine ⟨List.mem_append_left _ h.1, fun c hc hkey => ?_⟩
  rcases List.mem_append.mp hc with hc | hc
  · exact h.2 c hc hkey
  · obtain rfl := List.mem_singleton.mp hc
    exact hcall hkey

theorem Strongest.merge (h : Strongest calls ref) (hkey : key ref = key call)
    (hepochs : AgreeOnEpochs (calls ++ [call])) :
    Strongest (calls ++ [call]) (merge ref call.generation call.epoch) := by
  have hlast : call ∈ calls ++ [call] := List.mem_append_right _ List.mem_cons_self
  have hepoch : ref.epoch = call.epoch :=
    hepochs ref (List.mem_append_left _ h.1) call hlast hkey
  by_cases hgt : call.generation > ref.generation
  · have hmerged : AuthorityVector.merge ref call.generation call.epoch = call := by
      obtain ⟨hkind, hsubject⟩ := Prod.mk.inj hkey
      rw [AuthorityVector.merge, if_pos hgt, hkind, hsubject]
    rw [hmerged]
    refine ⟨hlast, fun c hc hc' => ?_⟩
    rcases List.mem_append.mp hc with hc | hc
    · exact UInt64.le_of_lt (UInt64.lt_of_le_of_lt (h.2 c hc (hc'.trans hkey.symm)) hgt)
    · rw [List.mem_singleton.mp hc]
      exact UInt64.le_refl _
  · have hmerged : AuthorityVector.merge ref call.generation call.epoch = ref := by
      rw [AuthorityVector.merge, if_neg hgt, ← hepoch]
    rw [hmerged]
    exact h.append fun _ => UInt64.not_lt.mp hgt

theorem Tracks.addRef_of_mem (h : Tracks calls vector) (hmem : key call ∈ vector.refs.map key) :
    Tracks (calls ++ [call]) (vector.addRef call) := by
  have hadd : vector.addRef call = { vector with
      refs := vector.refs.map (mergeAt call.kind call.subject call.generation call.epoch) } :=
    add_of_mem h.nodup hmem
  have hkeys : (vector.addRef call).refs.map key = vector.refs.map key := by
    rw [hadd, List.map_map]
    refine List.map_congr_left fun ref _ => ?_
    simp only [Function.comp_apply, mergeAt]
    split <;> rfl
  have hlength : (vector.addRef call).refs.length = vector.refs.length := by
    rw [hadd, List.length_map]
  have htruncated : (vector.addRef call).truncated = vector.truncated := by rw [hadd]
  have hmore : calls.map key ⊆ (calls ++ [call]).map key :=
    List.map_subset _ (List.subset_append_left _ _)
  refine ⟨hkeys ▸ h.nodup, hlength ▸ h.length_le, hkeys ▸ List.Subset.trans h.named hmore,
    fun hfull => ?_, fun hepochs hfull ref href => ?_, fun hfull => ?_⟩
  · rw [hkeys, List.map_append]
    refine List.append_subset.mpr ⟨h.complete (htruncated ▸ hfull), ?_⟩
    simpa using hmem
  · rw [hadd] at href
    obtain ⟨old, hold, rfl⟩ := List.mem_map.mp href
    have hstrong := h.strongest hepochs.of_append (htruncated ▸ hfull) old hold
    unfold mergeAt
    split
    · rename_i hkey
      exact hstrong.merge hkey hepochs
    · rename_i hkey
      exact hstrong.append fun heq => absurd heq.symm hkey
  · exact Nat.lt_of_lt_of_le (h.crowded (htruncated ▸ hfull))
      (length_le_subjects (List.nodup_dedup _) fun _ hk => hmore (List.mem_dedup.mp hk))

theorem Tracks.addRef_of_notMem (h : Tracks calls vector)
    (hnew : key call ∉ vector.refs.map key) :
    Tracks (calls ++ [call]) (vector.addRef call) := by
  have hmore : calls.map key ⊆ (calls ++ [call]).map key :=
    List.map_subset _ (List.subset_append_left _ _)
  have hlast : key call ∈ (calls ++ [call]).map key := by simp
  have hnodup : (key call :: vector.refs.map key).Nodup := List.nodup_cons.mpr ⟨hnew, h.nodup⟩
  have hcovered : key call :: vector.refs.map key ⊆ (calls ++ [call]).map key :=
    List.cons_subset.mpr ⟨hlast, List.Subset.trans h.named hmore⟩
  rcases vector.add_cases call.kind call.subject call.generation call.epoch with
    ⟨hold, -⟩ | ⟨-, hadd⟩
  · exact absurd hold hnew
  rw [addRef, hadd]
  split
  · refine ⟨h.nodup, h.length_le, List.Subset.trans h.named hmore, nofun, fun _ => nofun,
      fun _ => ?_⟩
    have hcount := length_le_subjects hnodup hcovered
    rw [List.length_cons, List.length_map] at hcount
    omega
  · rename_i hroom
    have hkeys : (vector.refs ++ [call]).map key = vector.refs.map key ++ [key call] := by simp
    refine ⟨?_, ?_, ?_, fun htruncated => ?_, fun hepochs htruncated ref href => ?_,
      fun htruncated => ?_⟩
    · rw [hkeys]
      exact (List.perm_append_singleton _ _).symm.nodup hnodup
    · rw [List.length_append, List.length_singleton]
      omega
    · rw [hkeys]
      exact List.append_subset.mpr ⟨List.Subset.trans h.named hmore, by simp⟩
    · rw [hkeys, List.map_append]
      exact List.append_subset.mpr
        ⟨List.Subset.trans (h.complete htruncated) (List.subset_append_left _ _), by simp⟩
    · rcases List.mem_append.mp href with hold | hnew'
      · refine (h.strongest hepochs.of_append htruncated ref hold).append fun heq => ?_
        exact absurd (heq ▸ List.mem_map_of_mem hold) hnew
      · obtain rfl := List.mem_singleton.mp hnew'
        refine ⟨List.mem_append_right _ List.mem_cons_self, fun c hc hkey => ?_⟩
        rcases List.mem_append.mp hc with hc | hc
        · -- the subject would be in the vector already
          exact absurd (h.complete htruncated (hkey ▸ List.mem_map_of_mem hc)) hnew
        · rw [List.mem_singleton.mp hc]
          exact UInt64.le_refl _
    · exact Nat.lt_of_lt_of_le (h.crowded htruncated)
        (length_le_subjects (List.nodup_dedup _) fun _ hk => hmore (List.mem_dedup.mp hk))

/-! ### Runs -/

theorem tracks_ofCalls (calls : List AuthorityRef) : Tracks calls (ofCalls calls) := by
  induction calls using List.reverseRecOn with
  | nil => exact tracks_empty
  | append_singleton done call ih =>
    rw [ofCalls, List.foldl_append]
    by_cases hmem : key call ∈ (ofCalls done).refs.map key
    · exact ih.addRef_of_mem hmem
    · exact ih.addRef_of_notMem hmem

theorem truncated_ofCalls_iff :
    (ofCalls calls).truncated = true ↔ Limits.maxAuthorityRefs < subjects calls := by
  have htracks := tracks_ofCalls calls
  refine ⟨htracks.crowded, fun hcrowded => ?_⟩
  by_contra hfull
  have hle := subjects_le (htracks.complete (Bool.eq_false_of_not_eq_true hfull))
  rw [List.length_map] at hle
  exact Nat.not_le.mpr hcrowded (hle.trans htracks.length_le)

theorem mem_refs_ofCalls_iff (hepochs : AgreeOnEpochs calls)
    (hroom : subjects calls ≤ Limits.maxAuthorityRefs) :
    ref ∈ (ofCalls calls).refs ↔ Strongest calls ref := by
  have htracks := tracks_ofCalls calls
  have hfull : (ofCalls calls).truncated = false := by
    rw [← Bool.not_eq_true, truncated_ofCalls_iff]
    exact Nat.not_lt.mpr hroom
  refine ⟨htracks.strongest hepochs hfull ref, fun hstrong => ?_⟩
  obtain ⟨ref', hmem, hkey⟩ := List.mem_map.mp
    (htracks.complete hfull (List.mem_map_of_mem hstrong.1))
  have hstrong' := htracks.strongest hepochs hfull ref' hmem
  have hgeneration : ref'.generation = ref.generation :=
    UInt64.le_antisymm (hstrong.2 ref' hstrong'.1 hkey) (hstrong'.2 ref hstrong.1 hkey.symm)
  have hepoch : ref'.epoch = ref.epoch := hepochs ref' hstrong'.1 ref hstrong.1 hkey
  obtain ⟨kind', subject', generation', epoch'⟩ := ref'
  obtain ⟨rfl, rfl⟩ := Prod.mk.inj hkey
  cases hgeneration
  cases hepoch
  exact hmem

/-! ### The digest -/

theorem code_injective {kind kind' : AuthorityKind} (h : kind.code = kind'.code) :
    kind = kind' := by
  cases kind <;> cases kind' <;> first | rfl | exact absurd h (by decide)

instance : Std.Total refLe where
  total a b := by
    unfold refLe
    by_cases hkind : a.kind = b.kind
    · rw [if_neg (not_not.mpr hkind), if_neg (not_not.mpr hkind.symm)]
      exact Nat.le_total _ _
    · rw [if_pos hkind, if_pos (Ne.symm hkind)]
      exact UInt8.lt_or_lt_of_ne fun h => hkind (code_injective h)

instance : IsTrans AuthorityRef refLe where
  trans a b c := by
    unfold refLe
    by_cases hab : a.kind = b.kind <;> by_cases hbc : b.kind = c.kind
    · rw [if_neg (not_not.mpr hab), if_neg (not_not.mpr hbc), if_neg (not_not.mpr (hab.trans hbc))]
      exact Nat.le_trans
    · rw [if_neg (not_not.mpr hab), if_pos hbc, hab, if_pos hbc]
      exact fun _ h => h
    · rw [if_pos hab, if_neg (not_not.mpr hbc), ← hbc, if_pos hab]
      exact fun h _ => h
    · rw [if_pos hab, if_pos hbc]
      intro h h'
      have hlt := UInt8.lt_trans h h'
      have hac : a.kind ≠ c.kind := fun heq => by
        rw [heq] at hlt
        exact UInt8.lt_irrefl _ hlt
      rw [if_pos hac]
      exact hlt

theorem key_eq_of_refLe {a b : AuthorityRef} (hab : refLe a b) (hba : refLe b a) :
    key a = key b := by
  unfold refLe at hab hba
  by_cases hkind : a.kind = b.kind
  · rw [if_neg (not_not.mpr hkind)] at hab
    rw [if_neg (not_not.mpr hkind.symm)] at hba
    exact Prod.ext hkind (Nat.le_antisymm hab hba)
  · rw [if_pos hkind] at hab
    rw [if_pos (Ne.symm hkind)] at hba
    exact absurd (UInt8.lt_trans hab hba) (UInt8.lt_irrefl _)

theorem digest_perm {vector vector' : AuthorityVector} (hperm : vector.refs.Perm vector'.refs)
    (hnodup : (vector.refs.map key).Nodup) (htruncated : vector.truncated = vector'.truncated) :
    vector.digest = vector'.digest := by
  have hsorted : ∀ refs : List AuthorityRef, (refs.insertionSort refLe).Pairwise refLe :=
    List.pairwise_insertionSort refLe
  have hboth : (vector.refs.insertionSort refLe).Perm (vector'.refs.insertionSort refLe) :=
    (List.perm_insertionSort refLe _).trans (hperm.trans (List.perm_insertionSort refLe _).symm)
  have heq : vector.refs.insertionSort refLe = vector'.refs.insertionSort refLe := by
    refine List.Perm.eq_of_pairwise (fun a b ha hb hab hba => ?_) (hsorted _) (hsorted _) hboth
    have ha' := (List.perm_insertionSort refLe _).mem_iff.mp ha
    have hb' := hperm.mem_iff.mpr ((List.perm_insertionSort refLe _).mem_iff.mp hb)
    exact List.inj_on_of_nodup_map hnodup ha' hb' (key_eq_of_refLe hab hba)
  rw [digest, digest, heq, htruncated]

/-- After any additions that agree on the epoch of each subject, an authority vector with room for
all subjects has exactly one reference to each, the strongest one, is not truncated, and has the
same digest in whichever order they were made. With more subjects than there is room for, it is
bounded and truncated. -/
theorem ofCalls_canonical (calls : List AuthorityRef) :
    (subjects calls ≤ Limits.maxAuthorityRefs → AgreeOnEpochs calls →
      ((ofCalls calls).refs.map key).Nodup ∧
      (∀ k, k ∈ (ofCalls calls).refs.map key ↔ k ∈ calls.map key) ∧
      (∀ ref, ref ∈ (ofCalls calls).refs ↔ Strongest calls ref) ∧
      (ofCalls calls).truncated = false ∧
      ∀ calls', calls.Perm calls' → (ofCalls calls').digest = (ofCalls calls).digest) ∧
    (Limits.maxAuthorityRefs < subjects calls →
      (ofCalls calls).refs.length ≤ Limits.maxAuthorityRefs ∧
        (ofCalls calls).truncated = true) := by
  have htracks := tracks_ofCalls calls
  refine ⟨fun hroom hepochs => ?_, fun hcrowded =>
    ⟨htracks.length_le, truncated_ofCalls_iff.mpr hcrowded⟩⟩
  have hfull : ∀ {calls' : List AuthorityRef}, subjects calls' ≤ Limits.maxAuthorityRefs →
      (ofCalls calls').truncated = false := fun hroom' => by
    rw [← Bool.not_eq_true, truncated_ofCalls_iff]
    exact Nat.not_lt.mpr hroom'
  refine ⟨htracks.nodup, fun k => ⟨fun hk => htracks.named hk,
    fun hk => htracks.complete (hfull hroom) hk⟩, fun ref => mem_refs_ofCalls_iff hepochs hroom,
    hfull hroom, fun calls' hperm => ?_⟩
  have hroom' : subjects calls' ≤ Limits.maxAuthorityRefs :=
    (Nat.le_of_eq (hperm.map key).dedup.length_eq.symm).trans hroom
  have hrefs : (ofCalls calls').refs.Perm (ofCalls calls).refs := by
    refine (List.perm_ext_iff_of_nodup (tracks_ofCalls calls').nodup.of_map
      htracks.nodup.of_map).mpr fun ref => ?_
    rw [mem_refs_ofCalls_iff (hepochs.perm hperm) hroom', mem_refs_ofCalls_iff hepochs hroom,
      Strongest.perm_iff hperm]
  exact digest_perm hrefs (tracks_ofCalls calls').nodup ((hfull hroom').trans (hfull hroom).symm)

/-- Two references to one subject around a reference to another. -/
def threeCalls : List AuthorityRef :=
  [⟨.policy, 1, 2, 1⟩, ⟨.capacitySnapshot, 4, 7, 1⟩, ⟨.policy, 1, 3, 1⟩]

theorem canonical_threeCalls :
    (∀ ref, ref ∈ (ofCalls threeCalls).refs ↔ Strongest threeCalls ref) ∧
      (ofCalls threeCalls).truncated = false ∧
      (ofCalls threeCalls.reverse).digest = (ofCalls threeCalls).digest := by
  have hepochs : AgreeOnEpochs threeCalls := by
    unfold AgreeOnEpochs
    decide
  obtain ⟨-, -, hrefs, hfull, hdigest⟩ := (ofCalls_canonical threeCalls).1 (by decide) hepochs
  exact ⟨hrefs, hfull, hdigest _ (List.reverse_perm threeCalls).symm⟩

end AuthorityVector

end AdmissionFabric
