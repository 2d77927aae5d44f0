import Mathlib.Data.List.Sort

/-!
# Stability of insertion sort

Elements that a relation does not separate keep their input order: filtering a
sorted list by a class on which `r` always holds gives the input's own filter.
Where `r` separates all elements, the input order does not matter.
-/

namespace StableSort

variable {α : Type*} (r : α → α → Prop) [DecidableRel r]

theorem filter_orderedInsert (p : α → Bool) (hp : ∀ a b, p a → p b → r a b) (a : α)
    (l : List α) : (l.orderedInsert r a).filter p = (a :: l).filter p := by
  induction l with
  | nil => rfl
  | cons b l ih =>
    rw [List.orderedInsert_cons]
    split
    · rfl
    · next hab =>
      rw [List.filter_cons, ih]
      cases hb : p b with
      | false => simp [List.filter_cons, hb]
      | true =>
        have ha : p a = false := by
          cases ha : p a with
          | false => rfl
          | true => exact absurd (hp a b ha hb) hab
        simp [ha, hb]

/-- **Stability.** -/
theorem filter_insertionSort (p : α → Bool) (hp : ∀ a b, p a → p b → r a b) (l : List α) :
    (l.insertionSort r).filter p = l.filter p := by
  induction l with
  | nil => rfl
  | cons a l ih => rw [List.insertionSort_cons, filter_orderedInsert r p hp, List.filter_cons, ih,
      List.filter_cons]

/-- **Order independence.** -/
theorem insertionSort_eq_of_perm [Std.Total r] [IsTrans α r] {l l' : List α} (h : l.Perm l')
    (hanti : ∀ a ∈ l, ∀ b ∈ l, r a b → r b a → a = b) :
    l.insertionSort r = l'.insertionSort r := by
  have hperm : (l.insertionSort r).Perm (l'.insertionSort r) :=
    (List.perm_insertionSort r l).trans (h.trans (List.perm_insertionSort r l').symm)
  refine hperm.eq_of_pairwise ?_ (List.pairwise_insertionSort r l)
    (List.pairwise_insertionSort r l')
  intro a b ha hb hab hba
  rw [List.mem_insertionSort] at ha hb
  exact hanti a ha b (h.mem_iff.mpr hb) hab hba

/-- **First element.**  The head of a sorted list is in front of every element. -/
theorem head_insertionSort [Std.Total r] [IsTrans α r] {l : List α} {a : α}
    (h : (l.insertionSort r).head? = some a) : a ∈ l ∧ ∀ b ∈ l, r a b := by
  obtain ⟨rest, hrest⟩ := List.head?_eq_some_iff.mp h
  have hsorted := List.pairwise_insertionSort r l
  have hmem : ∀ b, b ∈ l.insertionSort r ↔ b ∈ l := fun b => List.mem_insertionSort r
  rw [hrest] at hsorted hmem
  refine ⟨(hmem a).mp List.mem_cons_self, fun b hb => ?_⟩
  rcases List.mem_cons.mp ((hmem b).mpr hb) with rfl | hb
  · exact (Std.Total.total b b : r b b ∨ r b b).elim id id
  · exact (List.pairwise_cons.mp hsorted).1 b hb

theorem isSome_head_insertionSort (l : List α) : (l.insertionSort r).head?.isSome ↔ l ≠ [] := by
  rw [List.isSome_head?, Ne, Ne, ← List.length_eq_zero_iff, List.length_insertionSort,
    List.length_eq_zero_iff]

end StableSort
