import Mathlib.Algebra.GroupWithZero.Nat
import Mathlib.Data.List.Basic

/-!
# Separated fields

How many fields a line has when its columns are joined by a separator: each
column counts once, and once more for every separator inside it.
-/

namespace Fields

variable {α : Type*}

/-- What a line is made of. -/
theorem mem_intercalate {sep a : α} {columns : List (List α)}
    (h : a ∈ [sep].intercalate columns) : a = sep ∨ ∃ column ∈ columns, a ∈ column := by
  induction columns with
  | nil => simp at h
  | cons column columns ih =>
    cases columns with
    | nil => exact Or.inr ⟨column, List.mem_cons_self, by simpa using h⟩
    | cons next columns =>
      have hjoin : [sep].intercalate (column :: next :: columns) =
          column ++ sep :: [sep].intercalate (next :: columns) := by simp
      rw [hjoin, List.mem_append, List.mem_cons] at h
      rcases h with h | h | h
      · exact Or.inr ⟨column, List.mem_cons_self, h⟩
      · exact Or.inl h
      · rcases ih h with heq | ⟨column', hmem, ha⟩
        · exact Or.inl heq
        · exact Or.inr ⟨column', List.mem_cons_of_mem column hmem, ha⟩

variable [DecidableEq α]

theorem length_splitOn_pos (sep : α) (column : List α) : 0 < (column.splitOn sep).length :=
  List.length_pos_iff.mpr (List.splitOn_ne_nil sep column)

/-- A text is one field exactly when the separator is not in it. -/
theorem length_splitOn_eq_one_iff (sep : α) (column : List α) :
    (column.splitOn sep).length = 1 ↔ sep ∉ column := by
  constructor
  · intro hone hmem
    obtain ⟨front, back, rfl⟩ := List.append_of_mem hmem
    rw [List.splitOn_append_cons_self, List.length_append] at hone
    have hfront := length_splitOn_pos sep front
    have hback := length_splitOn_pos sep back
    omega
  · intro h
    rw [List.splitOn_eq_singleton h]
    rfl

/-- The fields of a line are those of its columns together. -/
theorem length_splitOn_intercalate (sep : α) {columns : List (List α)} (h : columns ≠ []) :
    (([sep].intercalate columns).splitOn sep).length =
      (columns.map fun column => (column.splitOn sep).length).sum := by
  induction columns with
  | nil => exact absurd rfl h
  | cons column columns ih =>
    cases columns with
    | nil => simp
    | cons next columns =>
      have hjoin : [sep].intercalate (column :: next :: columns) =
          column ++ sep :: [sep].intercalate (next :: columns) := by simp
      rw [hjoin, List.splitOn_append_cons_self, List.length_append, ih (by simp)]
      rfl

end Fields
