import Mathlib.Algebra.BigOperators.Group.List.Basic
import Mathlib.Algebra.Order.Group.Defs

/-!
# Numbers with a NaN

`WithNan α` adds one value to `α` that no ordered comparison holds of and that
every sum it enters turns into.  A guard written as a rejecting comparison lets
it through; the accepting form does not.
-/

inductive WithNan (α : Type*) where
  | number (x : α)
  | nan
  deriving DecidableEq, Repr

namespace WithNan

variable {α : Type*}

instance [LE α] : LE (WithNan α) where
  le
    | number x, number y => x ≤ y
    | _, _ => False

instance [LT α] : LT (WithNan α) where
  lt
    | number x, number y => x < y
    | _, _ => False

instance [LE α] [DecidableLE α] : DecidableLE (WithNan α)
  | number x, number y => inferInstanceAs (Decidable (x ≤ y))
  | number _, nan => isFalse id
  | nan, number _ => isFalse id
  | nan, nan => isFalse id

instance [LT α] [DecidableLT α] : DecidableLT (WithNan α)
  | number x, number y => inferInstanceAs (Decidable (x < y))
  | number _, nan => isFalse id
  | nan, number _ => isFalse id
  | nan, nan => isFalse id

instance [Add α] : Add (WithNan α) where
  add
    | number x, number y => number (x + y)
    | _, _ => nan

instance [Zero α] : Zero (WithNan α) := ⟨number 0⟩

/-- The number, if it is one. -/
def toNumber : WithNan α → Option α
  | number x => some x
  | nan => none

/-- The numbers of a list. -/
def numbers (xs : List (WithNan α)) : List α := xs.filterMap toNumber

theorem number_add_number [Add α] (x y : α) : number x + number y = number (x + y) := rfl

theorem ne_nan_of_le [LE α] {a b : WithNan α} (h : a ≤ b) : a ≠ nan ∧ b ≠ nan := by
  cases a with
  | number x =>
    cases b with
    | number y => exact ⟨fun h => (nomatch h), fun h => (nomatch h)⟩
    | nan => exact h.elim
  | nan => cases b <;> exact h.elim

theorem ne_nan_of_lt [LT α] {a b : WithNan α} (h : a < b) : a ≠ nan ∧ b ≠ nan := by
  cases a with
  | number x =>
    cases b with
    | number y => exact ⟨fun h => (nomatch h), fun h => (nomatch h)⟩
    | nan => exact h.elim
  | nan => cases b <;> exact h.elim

theorem exists_number_of_ne_nan {a : WithNan α} (h : a ≠ nan) : ∃ x, a = number x := by
  cases a with
  | number x => exact ⟨x, rfl⟩
  | nan => exact absurd rfl h

/-- Away from NaN a failed comparison is the opposite one. -/
theorem lt_of_not_le [LinearOrder α] {a b : WithNan α} (ha : a ≠ nan) (hb : b ≠ nan)
    (h : ¬b ≤ a) : a < b := by
  obtain ⟨x, rfl⟩ := exists_number_of_ne_nan ha
  obtain ⟨y, rfl⟩ := exists_number_of_ne_nan hb
  exact not_le.mp h

theorem le_of_not_lt [LinearOrder α] {a b : WithNan α} (ha : a ≠ nan) (hb : b ≠ nan)
    (h : ¬b < a) : a ≤ b := by
  obtain ⟨x, rfl⟩ := exists_number_of_ne_nan ha
  obtain ⟨y, rfl⟩ := exists_number_of_ne_nan hb
  exact not_lt.mp h

theorem numbers_append (xs ys : List (WithNan α)) :
    numbers (xs ++ ys) = numbers xs ++ numbers ys :=
  List.filterMap_append

theorem numbers_singleton (x : α) : numbers [number x] = [x] := rfl

end WithNan
