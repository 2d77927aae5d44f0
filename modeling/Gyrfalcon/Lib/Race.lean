import Mathlib.Order.Basic

/-!
# Racing two futures under a deadline

A future is described by when it resolves and with what; `none` hangs forever.
`select` takes whichever of two futures resolves first, with the polling order
deciding a tie, and `timeout` gives up after a fixed time.
-/

namespace Race

variable {α β : Type*}

/-- The time at which a future resolves, and its value. -/
abbrev Timed (α : Type*) := Option (Nat × α)

/-- Apply a function to the value, at the same time. -/
def Timed.mapValue (g : α → β) (a : Timed α) : Timed β := a.map (Prod.map id g)

/-- The branch of a `select` that is polled first. -/
inductive PollOrder where
  | leftFirst
  | rightFirst
  deriving DecidableEq, Repr

def PollOrder.swap : PollOrder → PollOrder
  | .leftFirst => .rightFirst
  | .rightFirst => .leftFirst

/-- A left branch ready at `s` wins against a right branch ready at `t`. -/
def PollOrder.Beats (order : PollOrder) (s t : Nat) : Prop :=
  s < t ∨ s = t ∧ order = .leftFirst

instance (order : PollOrder) (s t : Nat) : Decidable (order.Beats s t) :=
  inferInstanceAs (Decidable (s < t ∨ s = t ∧ order = .leftFirst))

/-- The first of two futures to resolve. -/
def select (order : PollOrder) : Timed α → Timed α → Timed α
  | some (s, x), some (t, y) => if order.Beats s t then some (s, x) else some (t, y)
  | some (s, x), none => some (s, x)
  | none, b => b

/-- The value, if it is there within `d`; a future that resolves exactly at the
deadline is still seen. -/
def timeout (d : Nat) : Timed α → Option α
  | some (t, x) => if t ≤ d then some x else none
  | none => none

theorem PollOrder.Beats.le {order : PollOrder} {s t : Nat} (h : order.Beats s t) : s ≤ t := by
  rcases h with h | ⟨h, -⟩ <;> omega

theorem PollOrder.swap_beats_iff (order : PollOrder) (s t : Nat) :
    order.swap.Beats t s ↔ ¬ order.Beats s t := by
  cases order <;> simp [PollOrder.Beats, PollOrder.swap] <;> omega

@[simp] theorem PollOrder.swap_swap (order : PollOrder) : order.swap.swap = order := by
  cases order <;> rfl

/-- A `select` is symmetric up to the polling order. -/
theorem select_swap (order : PollOrder) (a b : Timed α) :
    select order.swap b a = select order a b := by
  cases a with
  | none => cases b <;> rfl
  | some sx =>
    cases b with
    | none => rfl
    | some ty =>
      obtain ⟨s, x⟩ := sx
      obtain ⟨t, y⟩ := ty
      simp only [select, PollOrder.swap_beats_iff]
      by_cases h : order.Beats s t <;> simp [h]

theorem mapValue_mapValue {γ : Type*} (g : α → β) (h : β → γ) (a : Timed α) :
    (a.mapValue g).mapValue h = a.mapValue (h ∘ g) := by
  cases a <;> rfl

theorem select_mapValue (order : PollOrder) (g : α → β) (a b : Timed α) :
    select order (a.mapValue g) (b.mapValue g) = (select order a b).mapValue g := by
  cases a with
  | none => cases b <;> rfl
  | some sx =>
    cases b with
    | none => rfl
    | some ty =>
      obtain ⟨s, x⟩ := sx
      obtain ⟨t, y⟩ := ty
      by_cases h : order.Beats s t <;> simp [select, Timed.mapValue, h]

theorem timeout_mapValue (d : Nat) (g : α → β) (a : Timed α) :
    timeout d (a.mapValue g) = (timeout d a).map g := by
  cases a with
  | none => rfl
  | some ty =>
    obtain ⟨t, y⟩ := ty
    by_cases h : t ≤ d <;> simp [timeout, Timed.mapValue, h]

theorem timeout_eq_some_iff (d : Nat) (a : Timed α) (x : α) :
    timeout d a = some x ↔ ∃ t ≤ d, a = some (t, x) := by
  cases a with
  | none => simp [timeout]
  | some ty =>
    obtain ⟨t, y⟩ := ty
    simp only [timeout, Option.some.injEq, Prod.mk.injEq]
    constructor
    · intro h
      split at h
      · next ht => exact ⟨t, ht, rfl, Option.some.inj h⟩
      · cases h
    · rintro ⟨_, ht, rfl, rfl⟩
      exact if_pos ht

end Race
