import Mathlib.Data.List.Induction

/-!
# Queues that expire from the front

Items are pushed at the back and expired items are dropped from the front, up to
the first one that is not expired.  `filter_run` says what such a queue still
holds of the items somebody may look at; `dropWhile_eq_filter_iff` says when
nothing expired is left behind.
-/

namespace Expiry

variable {α : Type*}

inductive Op (α : Type*) where
  | push (a : α)
  | evict (expired : α → Bool)

/-- One operation on the queue. -/
def apply (queue : List α) : Op α → List α
  | .push a => queue ++ [a]
  | .evict expired => queue.dropWhile expired

/-- The item an operation pushes. -/
def Op.pushed : Op α → Option α
  | .push a => some a
  | .evict _ => none

/-- Evicting takes nothing that is looked at. -/
theorem filter_dropWhile {live expired : α → Bool} (h : ∀ a, live a = true → expired a = false)
    (queue : List α) : (queue.dropWhile expired).filter live = queue.filter live := by
  induction queue with
  | nil => rfl
  | cons a queue ih =>
    cases hexpired : expired a with
    | true =>
      have hlive : ¬ live a = true := fun hlive => by simp [h a hlive] at hexpired
      rw [List.dropWhile_cons_of_pos hexpired, List.filter_cons_of_neg hlive, ih]
    | false => rw [List.dropWhile_cons_of_neg (by simp [hexpired])]

/-- **Runs.**  When no eviction can take a live item, the live items of the queue
are those it held at first and those pushed since, in that order. -/
theorem filter_run {live : α → Bool} {ops : List (Op α)}
    (h : ∀ expired, .evict expired ∈ ops → ∀ a, live a = true → expired a = false)
    (queue : List α) :
    (ops.foldl apply queue).filter live =
      (queue ++ ops.filterMap Op.pushed).filter live := by
  induction ops using List.reverseRecOn with
  | nil => simp
  | append_singleton ops op ih =>
    have hbefore := ih fun expired hmem => h expired (List.mem_append_left _ hmem)
    rw [List.foldl_append, List.foldl_cons, List.foldl_nil, List.filterMap_append]
    cases op with
    | push a =>
      show (_ ++ [a]).filter live = _
      rw [List.filter_append, hbefore, ← List.filter_append, List.append_assoc]
      rfl
    | evict expired =>
      show (List.dropWhile expired _).filter live = _
      rw [filter_dropWhile (h expired (by simp)), hbefore]
      simp [Op.pushed]

/-- **Nothing left behind.**  Evicting from the front removes every expired item,
if and only if no expired item was pushed after one that is not. -/
theorem dropWhile_eq_filter_iff (expired : α → Bool) (queue : List α) :
    queue.dropWhile expired = queue.filter (fun a => !expired a) ↔
      queue.Pairwise fun a b => expired b = true → expired a = true := by
  induction queue with
  | nil => simp
  | cons a queue ih =>
    rw [List.pairwise_cons]
    cases hexpired : expired a with
    | true =>
      rw [List.dropWhile_cons_of_pos hexpired, List.filter_cons_of_neg (by simp [hexpired]), ih]
      simp
    | false =>
      rw [List.dropWhile_cons_of_neg (by simp [hexpired]), List.filter_cons_of_pos
        (by simp [hexpired]), List.cons.injEq, eq_comm (a := queue), List.filter_eq_self]
      constructor
      · rintro ⟨-, hall⟩
        have hkept : ∀ b ∈ queue, ¬ expired b = true := fun b hb => by simpa using hall b hb
        refine ⟨fun b hb hexp => absurd hexp (hkept b hb), ?_⟩
        exact List.pairwise_of_forall_mem_list fun _ _ b hb hexp => absurd hexp (hkept b hb)
      · rintro ⟨hall, -⟩
        refine ⟨rfl, fun b hb => ?_⟩
        cases hb' : expired b with
        | true => exact absurd (hall b hb hb') (by simp)
        | false => rfl

end Expiry
