import Mathlib.Data.List.Sort
import Mathlib.Order.Defs.LinearOrder

/-!
# The upper median and its breakdown point

The element at index `length / 2` of a sorted list.  A value that makes up more
than half of a list is its upper median, whatever the rest is: fewer than half
of the entries cannot move it.
-/

namespace Median

variable {α : Type*} [LinearOrder α]

/-- The middle of a sorted list is there, if the list is not empty. -/
theorem half_lt_length {l : List α} (h : l ≠ []) :
    (l.insertionSort (· ≤ ·)).length / 2 < (l.insertionSort (· ≤ ·)).length := by
  rw [List.length_insertionSort]
  exact Nat.div_lt_self (List.length_pos_iff.mpr h) (by decide)

/-- A value that is missing from the first `i` entries. -/
theorem count_le_of_notMem_take {l : List α} {a : α} (i : Nat) (h : a ∉ l.take i) :
    l.count a ≤ l.length - i := by
  calc l.count a = (l.take i ++ l.drop i).count a := by rw [List.take_append_drop]
    _ = (l.drop i).count a := by rw [List.count_append, List.count_eq_zero_of_not_mem h,
        Nat.zero_add]
    _ ≤ (l.drop i).length := List.count_le_length
    _ = l.length - i := List.length_drop

/-- A value that is missing from index `i` on. -/
theorem count_le_of_notMem_drop {l : List α} {a : α} (i : Nat) (h : a ∉ l.drop i) :
    l.count a ≤ i := by
  calc l.count a = (l.take i ++ l.drop i).count a := by rw [List.take_append_drop]
    _ = (l.take i).count a := by rw [List.count_append, List.count_eq_zero_of_not_mem h,
        Nat.add_zero]
    _ ≤ (l.take i).length := List.count_le_length
    _ ≤ i := List.length_take_le i l

/-- In a sorted list, a strict majority sits in the middle. -/
theorem get_half_of_majority {l : List α} (hsorted : l.Pairwise (· ≤ ·)) {a : α}
    (hmajority : l.length < 2 * l.count a) (i : Fin l.length) (hi : i.val = l.length / 2) :
    l.get i = a := by
  have hmono : Monotone l.get := (List.sortedLE_iff_pairwise.mpr hsorted).monotone_get
  rcases lt_trichotomy (l.get i) a with hlt | heq | hgt
  · have hmissing : a ∉ l.take (i.val + 1) := by
      intro hmem
      obtain ⟨j, hj, rfl⟩ := List.mem_take_iff_getElem.mp hmem
      have hj : j < i.val + 1 ∧ j < l.length := Nat.lt_min.mp hj
      exact absurd hlt (not_lt.mpr (@hmono ⟨j, hj.2⟩ i (Nat.le_of_lt_succ hj.1)))
    have := count_le_of_notMem_take _ hmissing
    omega
  · exact heq
  · have hmissing : a ∉ l.drop i.val := by
      intro hmem
      obtain ⟨j, hj, rfl⟩ := List.mem_drop_iff_getElem.mp hmem
      have hij : i.val ≤ i.val + j := Nat.le_add_right _ _
      exact absurd hgt (not_lt.mpr (@hmono i ⟨i.val + j, by omega⟩ hij))
    have := count_le_of_notMem_drop _ hmissing
    omega

/-- **Breakdown point.**  Whatever fewer than half of the entries are, the upper
median of a list is the value of the others. -/
theorem get_half_insertionSort {l : List α} {a : α} (hmajority : l.length < 2 * l.count a)
    (i : Fin (l.insertionSort (· ≤ ·)).length)
    (hi : i.val = (l.insertionSort (· ≤ ·)).length / 2) :
    (l.insertionSort (· ≤ ·)).get i = a := by
  refine get_half_of_majority (List.pairwise_insertionSort _ l) ?_ i hi
  rwa [List.length_insertionSort, (List.perm_insertionSort _ l).count_eq]

end Median
