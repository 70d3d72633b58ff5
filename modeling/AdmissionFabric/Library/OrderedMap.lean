import Mathlib.Algebra.Ring.Nat
import Mathlib.Data.List.Sort

/-!
# Ordered maps as lists of bindings

A state that keeps its data in an ordered map is summed, filtered and searched through the list
of its bindings. These lemmas say how that list changes under insertion and removal, up to a
permutation, for any value that a fold over the bindings computes.
-/

namespace OrderedMap

open Std

variable {α β : Type} {cmp : α → α → Ordering} [TransCmp cmp] [LawfulEqCmp cmp]

theorem nodup_toList (m : ExtTreeMap α β cmp) : m.toList.Nodup := by
  refine m.distinct_keys_toList.imp ?_
  rintro ⟨a, v⟩ ⟨b, w⟩ hne heq
  obtain ⟨rfl, -⟩ := Prod.mk.inj heq
  exact hne ReflCmp.compare_self

omit [LawfulEqCmp cmp] in
@[simp] theorem toList_empty : (∅ : ExtTreeMap α β cmp).toList = [] := by
  rw [ExtTreeMap.toList_eq_nil_iff]

theorem toList_insert_perm (m : ExtTreeMap α β cmp) {k : α} {v : β} (hk : m[k]? = none) :
    (m.insert k v).toList.Perm ((k, v) :: m.toList) := by
  have hnot : (k, v) ∉ m.toList := by
    rw [ExtTreeMap.mem_toList_iff_getElem?_eq_some, hk]
    simp
  rw [List.perm_ext_iff_of_nodup (nodup_toList _) (List.nodup_cons.mpr ⟨hnot, nodup_toList _⟩)]
  rintro ⟨a, w⟩
  rw [ExtTreeMap.mem_toList_iff_getElem?_eq_some, ExtTreeMap.getElem?_insert, List.mem_cons,
    ExtTreeMap.mem_toList_iff_getElem?_eq_some, Prod.mk.injEq]
  by_cases h : k = a
  · subst h
    simp [hk, ReflCmp.compare_self, eq_comm]
  · simp [h, Ne.symm h]

/-- The binding of a bound key and the bindings that remain after its removal. -/
theorem toList_perm_cons_erase (m : ExtTreeMap α β cmp) {k : α} {v : β} (hk : m[k]? = some v) :
    m.toList.Perm ((k, v) :: (m.erase k).toList) := by
  have hnot : (k, v) ∉ (m.erase k).toList := by
    simp
  rw [List.perm_ext_iff_of_nodup (nodup_toList _) (List.nodup_cons.mpr ⟨hnot, nodup_toList _⟩)]
  rintro ⟨a, w⟩
  rw [List.mem_cons, ExtTreeMap.mem_toList_iff_getElem?_eq_some,
    ExtTreeMap.mem_toList_iff_getElem?_eq_some, ExtTreeMap.getElem?_erase, Prod.mk.injEq]
  by_cases h : k = a
  · subst h
    simp [hk, ReflCmp.compare_self, eq_comm]
  · simp [h, Ne.symm h]

/-- A listing that names every bound key exactly once, beside keys that are not bound, sums to the
same as the bindings. -/
theorem sum_map_getElem? [BEq α] [LawfulBEq α] (m : ExtTreeMap α β cmp) (f : β → Nat)
    {keys : List α} (hkeys : ∀ k ∈ m, keys.count k = 1) :
    (keys.map fun k => (m[k]?.map f).getD 0).sum = (m.toList.map fun b => f b.2).sum := by
  have hperm : (keys.filter (· ∈ m)).Perm m.keys := by
    refine (List.perm_ext_iff_of_nodup ?_ m.nodup_keys).mpr fun k => ?_
    · refine List.nodup_iff_count_le_one.mpr fun k => ?_
      by_cases hk : k ∈ m
      · rw [List.count_filter (by simpa using hk), hkeys k hk]
      · rw [List.count_eq_zero.mpr fun h => hk (by simpa using (List.mem_filter.mp h).2)]
        exact Nat.zero_le 1
    · rw [List.mem_filter, ExtTreeMap.mem_keys, decide_eq_true_eq]
      refine and_iff_right_of_imp fun hk => List.count_pos_iff.mp ?_
      rw [hkeys k hk]
      exact Nat.one_pos
  have hzero : ∀ keys : List α, (keys.map fun k => (m[k]?.map f).getD 0).sum =
      ((keys.filter (· ∈ m)).map fun k => (m[k]?.map f).getD 0).sum := by
    intro keys
    induction keys with
    | nil => rfl
    | cons k rest ih =>
      by_cases hk : k ∈ m
      · simp [hk, ih]
      · simp [hk, ih]
  rw [hzero, (hperm.map _).sum_nat, ← ExtTreeMap.map_fst_toList_eq_keys, List.map_map]
  refine congrArg List.sum (List.map_congr_left fun b hb => ?_)
  rw [Function.comp_apply, ExtTreeMap.mem_toList_iff_getElem?_eq_some.mp hb]
  rfl

/-! ### Pairs as keys -/

/-- The lexicographic order of a map keyed by pairs. -/
abbrev pairCmp {α β : Type} [Ord α] [Ord β] : α × β → α × β → Ordering :=
  compareLex (compareOn Prod.fst) (compareOn Prod.snd)

instance {α β : Type} [Ord α] [Ord β] [TransOrd α] [TransOrd β] :
    TransCmp (pairCmp (α := α) (β := β)) :=
  inferInstanceAs (TransCmp (compareLex _ _))

instance {α β : Type} [Ord α] [Ord β] [LawfulEqOrd α] [LawfulEqOrd β] :
    LawfulEqCmp (pairCmp (α := α) (β := β)) where
  compare_self := by
    intro a
    simp [pairCmp, compareLex, compareOn]
  eq_of_compare := by
    rintro ⟨a, b⟩ ⟨a', b'⟩ h
    simp only [pairCmp, compareLex, compareOn, Ordering.then_eq_eq, Std.compare_eq_iff_eq] at h
    exact Prod.ext h.1 h.2

end OrderedMap
