import AdmissionFabric.Library.OrderedMap

/-!
# Ordered maps under other names

A map whose keys are renamed along an order embedding and whose values are translated lists the
same bindings in the same order. The second map may have further bindings under keys that are no
name of the first.
-/

namespace OrderedMap

open Std

section Carries

variable {α α' β β' : Type} {cmp : α → α → Ordering} [TransCmp cmp] [LawfulEqCmp cmp]
  {cmp' : α' → α' → Ordering} [TransCmp cmp'] [LawfulEqCmp cmp']

/-- The second map is the first, with keys renamed by `σ` and values translated by `f`. -/
def Carries (σ : α → α') (f : β → β') (m : ExtTreeMap α β cmp) (m' : ExtTreeMap α' β' cmp') :
    Prop :=
  ∀ k, m'[σ k]? = m[k]?.map f

namespace Carries

variable {σ : α → α'} {f : β → β'} {m : ExtTreeMap α β cmp} {m' : ExtTreeMap α' β' cmp'}

theorem insert (h : Carries σ f m m') (hσ : Function.Injective σ) (k : α) (v : β) :
    Carries σ f (m.insert k v) (m'.insert (σ k) (f v)) := by
  intro x
  rw [ExtTreeMap.getElem?_insert, ExtTreeMap.getElem?_insert, h x]
  by_cases hx : k = x
  · subst hx
    simp
  · have hne : σ k ≠ σ x := fun heq => hx (hσ heq)
    simp [hx, hne]

theorem erase (h : Carries σ f m m') (hσ : Function.Injective σ) (k : α) :
    Carries σ f (m.erase k) (m'.erase (σ k)) := by
  intro x
  rw [ExtTreeMap.getElem?_erase, ExtTreeMap.getElem?_erase, h x]
  by_cases hx : k = x
  · subst hx
    simp
  · have hne : σ k ≠ σ x := fun heq => hx (hσ heq)
    simp [hx, hne]

omit [LawfulEqCmp cmp] in
/-- A binding under a key that is no name changes nothing. -/
theorem add (h : Carries σ f m m') {k' : α'} (hk : ∀ k, σ k ≠ k') (v : β') :
    Carries σ f m (m'.insert k' v) := by
  intro x
  rw [ExtTreeMap.getElem?_insert, h x]
  simp [(hk x).symm]

theorem map {γ γ' : Type} {f' : γ → γ'} {g : α → β → γ} {g' : α' → β' → γ'}
    (h : Carries σ f m m') (hg : ∀ k v, g' (σ k) (f v) = f' (g k v)) :
    Carries σ f' (m.map g) (m'.map g') := by
  intro x
  rw [ExtTreeMap.getElem?_map, ExtTreeMap.getElem?_map, h x]
  cases m[x]? with
  | none => rfl
  | some v => exact congrArg some (hg x v)

theorem filter_toList (h : Carries σ f m m') (hσ : ∀ a b, cmp' (σ a) (σ b) = cmp a b)
    {named : α' → Bool} (hnamed : ∀ k', named k' = true ↔ ∃ k, σ k = k') :
    m'.toList.filter (fun b => named b.1) = m.toList.map (Prod.map σ f) := by
  have hsorted : (m.toList.map (Prod.map σ f)).Pairwise fun a b => cmp' a.1 b.1 = .lt := by
    refine List.pairwise_map.mpr (m.ordered_keys_toList.imp fun hlt => ?_)
    exact (hσ _ _).trans hlt
  have hsorted' : (m'.toList.filter (fun b => named b.1)).Pairwise
      fun a b => cmp' a.1 b.1 = .lt := m'.ordered_keys_toList.filter _
  have hnodup : ∀ l : List (α' × β'), (l.Pairwise fun a b => cmp' a.1 b.1 = .lt) → l.Nodup := by
    intro l hl
    refine hl.imp ?_
    rintro a b hlt rfl
    have hself : cmp' a.1 a.1 = .eq := ReflCmp.compare_self
    rw [hself] at hlt
    cases hlt
  have hmem : ∀ b, b ∈ m'.toList.filter (fun b => named b.1) ↔
      b ∈ m.toList.map (Prod.map σ f) := by
    rintro ⟨k', v'⟩
    rw [List.mem_filter, ExtTreeMap.mem_toList_iff_getElem?_eq_some, hnamed, List.mem_map]
    constructor
    · rintro ⟨hget, k, rfl⟩
      rw [h k, Option.map_eq_some_iff] at hget
      obtain ⟨v, hv, rfl⟩ := hget
      exact ⟨(k, v), ExtTreeMap.mem_toList_iff_getElem?_eq_some.mpr hv, rfl⟩
    · rintro ⟨⟨k, v⟩, hkv, heq⟩
      obtain ⟨rfl, rfl⟩ := Prod.mk.inj heq
      rw [h k, ExtTreeMap.mem_toList_iff_getElem?_eq_some.mp hkv]
      exact ⟨rfl, k, rfl⟩
  have hperm := (List.perm_ext_iff_of_nodup (hnodup _ hsorted') (hnodup _ hsorted)).mpr hmem
  refine hperm.eq_of_pairwise (fun a b _ _ hab hba => ?_) hsorted' hsorted
  have hswap : cmp' a.1 b.1 = (cmp' b.1 a.1).swap := OrientedCmp.eq_swap
  rw [hab, hba] at hswap
  cases hswap

theorem toList (h : Carries σ f m m') (hσ : ∀ a b, cmp' (σ a) (σ b) = cmp a b)
    (hall : ∀ k' ∈ m', ∃ k, σ k = k') : m'.toList = m.toList.map (Prod.map σ f) := by
  classical
  have hfilter := h.filter_toList hσ (fun k' => decide_eq_true_iff (p := ∃ k, σ k = k'))
  rwa [List.filter_eq_self.mpr] at hfilter
  rintro ⟨k', v'⟩ hmem
  have hget := ExtTreeMap.mem_toList_iff_getElem?_eq_some.mp hmem
  refine decide_eq_true (hall k' ?_)
  rw [ExtTreeMap.mem_iff_isSome_getElem?, hget]
  rfl

end Carries

end Carries

/-! ### Leaving one number out -/

/-- Every number from `n` on is renamed to its successor. -/
def skip (n d : Nat) : Nat := if d < n then d else d + 1

section skip

variable {n : Nat}

theorem skip_of_lt {d : Nat} (h : d < n) : skip n d = d := if_pos h

theorem skip_of_le {d : Nat} (h : n ≤ d) : skip n d = d + 1 := if_neg (Nat.not_lt.mpr h)

theorem skip_lt_skip {d e : Nat} : skip n d < skip n e ↔ d < e := by
  unfold skip
  split <;> split <;> omega

theorem skip_injective : Function.Injective (skip n) := by
  intro d e h
  unfold skip at h
  split at h <;> split at h <;> omega

theorem compare_skip (d e : Nat) : compare (skip n d) (skip n e) = compare d e := by
  rcases Nat.lt_trichotomy d e with h | rfl | h
  · rw [Nat.compare_eq_lt.mpr h, Nat.compare_eq_lt.mpr (skip_lt_skip.mpr h)]
  · rw [Nat.compare_eq_eq.mpr rfl, Nat.compare_eq_eq.mpr rfl]
  · rw [Nat.compare_eq_gt.mpr h, Nat.compare_eq_gt.mpr (skip_lt_skip.mpr h)]

theorem skip_ne (d : Nat) : skip n d ≠ n := by
  unfold skip
  split <;> omega

theorem skip_eq_zero (h : 0 < n) {d : Nat} : skip n d = 0 ↔ d = 0 := by
  unfold skip
  split <;> omega

theorem exists_skip_iff {d : Nat} : (∃ e, skip n e = d) ↔ d ≠ n := by
  constructor
  · rintro ⟨e, rfl⟩
    exact skip_ne e
  · intro h
    rcases Nat.lt_or_gt_of_ne h with hlt | hgt
    · exact ⟨d, skip_of_lt hlt⟩
    · refine ⟨d - 1, ?_⟩
      rw [skip_of_le (by omega)]
      omega

/-- A map whose names are all below the number is not affected. -/
theorem carries_skip {β : Type} {f : β → β} {m : ExtTreeMap Nat β}
    (h : ∀ k v, m[k]? = some v → k < n ∧ f v = v) : Carries (skip n) f m m := by
  intro k
  by_cases hk : k < n
  · rw [skip_of_lt hk]
    cases hget : m[k]? with
    | none => rfl
    | some v => exact congrArg some (h k v hget).2.symm
  · have hnone : ∀ k', n ≤ k' → m[k']? = none := by
      intro k' hle
      refine Option.eq_none_iff_forall_ne_some.mpr fun v hv => ?_
      exact Nat.not_lt.mpr hle (h k' v hv).1
    have hle : n ≤ k := Nat.not_lt.mp hk
    rw [skip_of_le hle, hnone _ (Nat.le_succ_of_le hle), hnone k hle]
    rfl

end skip

end OrderedMap
