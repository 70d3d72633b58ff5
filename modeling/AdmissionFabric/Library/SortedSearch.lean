import Mathlib.Algebra.Ring.Nat
import Mathlib.Data.List.Sort

/-!
# Binary search in a sorted list

`findBy` is a lookup by lower bound: the first item whose key is not below the one sought, if it
carries that key. On a list with strictly increasing keys it finds exactly what a linear scan
finds, and so does the bisection that a lower bound is computed by.
-/

namespace SortedSearch

variable {α : Type}

/-- The item with the given key, searched by lower bound. -/
def findBy (project : α → UInt64) (items : List α) (key : UInt64) : Option α :=
  match items.dropWhile (project · < key) with
  | [] => none
  | item :: _ => if project item = key then some item else none

/-- Whatever the order of the list, a hit is an item with that key. -/
theorem mem_of_findBy_eq_some {project : α → UInt64} {items : List α} {key : UInt64} {item : α}
    (h : findBy project items key = some item) : item ∈ items ∧ project item = key := by
  unfold findBy at h
  split at h
  · simp at h
  · rename_i x xs hdrop
    split at h
    · rename_i hkey
      obtain rfl := Option.some.inj h
      refine ⟨(List.dropWhile_sublist _).mem (hdrop ▸ List.mem_cons_self), hkey⟩
    · simp at h

/-- On strictly increasing keys the search finds exactly the item with that key. -/
theorem findBy_eq_some_iff {project : α → UInt64} {items : List α}
    (hsorted : items.Pairwise fun a b => project a < project b) {key : UInt64} {item : α} :
    findBy project items key = some item ↔ item ∈ items ∧ project item = key := by
  refine ⟨mem_of_findBy_eq_some, ?_⟩
  rintro ⟨hmem, rfl⟩
  induction items with
  | nil => simp at hmem
  | cons x xs ih =>
    obtain ⟨hx, hxs⟩ := List.pairwise_cons.mp hsorted
    rcases List.mem_cons.mp hmem with rfl | hmem
    · simp [findBy, UInt64.lt_irrefl]
    · have hlt := hx item hmem
      have hrest := ih hxs hmem
      simpa only [findBy, List.dropWhile_cons, hlt, decide_true, if_true] using hrest

/-- On strictly increasing keys the search finds what a linear scan finds. -/
theorem findBy_eq_find {project : α → UInt64} {items : List α}
    (hsorted : items.Pairwise fun a b => project a < project b) (key : UInt64) :
    findBy project items key = items.find? (project · = key) := by
  cases hscan : items.find? (project · = key) with
  | none =>
    rw [Option.eq_none_iff_forall_ne_some]
    intro item hfind
    obtain ⟨hmem, hkey⟩ := mem_of_findBy_eq_some hfind
    have hnot := List.find?_eq_none.mp hscan item hmem
    exact hnot (decide_eq_true hkey)
  | some item =>
    have hkey := List.find?_some hscan
    exact (findBy_eq_some_iff hsorted).mpr
      ⟨List.mem_of_find?_eq_some hscan, of_decide_eq_true hkey⟩

/-! ### Bisection -/

/-- The lower bound of a key among the `count` items from `first` on, by halving. -/
def lowerBound (project : α → UInt64) (items : List α) (key : UInt64) (first count : Nat) : Nat :=
  if count = 0 then first
  else
    let step := count / 2
    if (items[first + step]?).any (project · < key) then
      lowerBound project items key (first + step + 1) (count - (step + 1))
    else lowerBound project items key first step
termination_by count

/-- The item at the lower bound, if it carries the key. -/
def bisect (project : α → UInt64) (items : List α) (key : UInt64) : Option α :=
  (items[lowerBound project items key 0 items.length]?).filter (project · = key)

/-- A position such that the keys before it are below the one sought, and the others are not. -/
structure Splits (project : α → UInt64) (items : List α) (key : UInt64) (low high : Nat) :
    Prop where
  below : ∀ i item, items[i]? = some item → i < low → project item < key
  above : ∀ i item, items[i]? = some item → high ≤ i → key ≤ project item

/-- The halving narrows an interval down to the lower bound: the keys before the interval stay
below the one sought and the keys after it stay above. -/
theorem lowerBound_spec {project : α → UInt64} {items : List α}
    (hsorted : items.Pairwise fun a b => project a < project b) {key : UInt64} :
    ∀ (count first : Nat), first + count ≤ items.length →
      Splits project items key first (first + count) →
      Splits project items key (lowerBound project items key first count)
        (lowerBound project items key first count) := by
  have hlt : ∀ {i j : Nat} {a b : α}, items[i]? = some a → items[j]? = some b → i < j →
      project a < project b := by
    intro i j a b ha hb hij
    obtain ⟨hi, rfl⟩ := List.getElem?_eq_some_iff.mp ha
    obtain ⟨hj, rfl⟩ := List.getElem?_eq_some_iff.mp hb
    exact List.pairwise_iff_getElem.mp hsorted i j hi hj hij
  intro count
  induction count using Nat.strongRecOn with
  | ind count ih =>
    intro first hfits hsplits
    rw [lowerBound]
    by_cases hzero : count = 0
    · rw [if_pos hzero]
      rw [hzero, Nat.add_zero] at hsplits
      exact hsplits
    · rw [if_neg hzero]
      have hmid : first + count / 2 < items.length := by omega
      have hget := List.getElem?_eq_getElem hmid
      simp only [hget, Option.any_some, decide_eq_true_eq]
      by_cases hbelow : project items[first + count / 2] < key
      · -- the middle is below: the lower bound is after it
        rw [if_pos hbelow]
        refine ih _ (by omega) _ (by omega) ⟨?_, ?_⟩
        · intro i item hi hle
          rcases Nat.lt_or_eq_of_le (Nat.le_of_lt_succ hle) with hbefore | rfl
          · exact UInt64.lt_trans (hlt hi hget hbefore) hbelow
          · rwa [← Option.some.inj (hget.symm.trans hi)]
        · intro i item hi hle
          exact hsplits.above i item hi (by omega)
      · rw [if_neg hbelow]
        refine ih _ (by omega) _ (by omega) ⟨hsplits.below, ?_⟩
        intro i item hi hle
        have hkey := UInt64.not_lt.mp hbelow
        rcases Nat.lt_or_eq_of_le hle with hafter | rfl
        · exact UInt64.le_trans hkey (UInt64.le_of_lt (hlt hget hi hafter))
        · rwa [← Option.some.inj (hget.symm.trans hi)]

/-- On strictly increasing keys the bisection is the lookup by lower bound. -/
theorem bisect_eq_findBy {project : α → UInt64} {items : List α}
    (hsorted : items.Pairwise fun a b => project a < project b) (key : UInt64) :
    bisect project items key = findBy project items key := by
  obtain ⟨hbelow, habove⟩ : Splits project items key
      (lowerBound project items key 0 items.length)
      (lowerBound project items key 0 items.length) := by
    refine lowerBound_spec hsorted items.length 0 (by omega) ⟨?_, ?_⟩
    · intro i item _ hi
      exact absurd hi (Nat.not_lt_zero i)
    · intro i item hget hi
      obtain ⟨hlt, -⟩ := List.getElem?_eq_some_iff.mp hget
      omega
  ext item
  rw [findBy_eq_some_iff hsorted, bisect, Option.filter_eq_some_iff, decide_eq_true_eq]
  refine and_congr_left fun hkey => ⟨List.mem_of_getElem?, fun hmem => ?_⟩
  -- the item with the key is neither before the lower bound nor after it
  obtain ⟨i, hi⟩ := List.mem_iff_getElem?.mp hmem
  obtain ⟨hlt, hget⟩ := List.getElem?_eq_some_iff.mp hi
  rcases Nat.lt_trichotomy i (lowerBound project items key 0 items.length) with h | h | h
  · exact absurd (hbelow i item hi h) (hkey ▸ UInt64.lt_irrefl _)
  · rw [← h, hi]
  · have hle := habove _ _ (List.getElem?_eq_getElem (Nat.lt_trans h hlt)) (Nat.le_refl _)
    have hlater := List.pairwise_iff_getElem.mp hsorted _ i (Nat.lt_trans h hlt) hlt h
    rw [hget, hkey] at hlater
    exact absurd hlater (UInt64.not_lt.mpr hle)

end SortedSearch
