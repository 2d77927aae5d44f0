import Mathlib.Data.List.Basic
import Mathlib.Data.List.Induction

/-!
# Extremal elements under a comparator

Rust's `Iterator::min_by` and `max_by`: one pass that keeps the first of equal
minima and the last of equal maxima.  `minBy_eq_some_iff` and
`maxBy_eq_some_iff` say exactly which element is kept; the last section says
when the choice does not depend on the order of the list.
-/

namespace Extremum

variable {α : Type*} (cmp : α → α → Ordering)

/-- One pass over `xs` that keeps one element. -/
def scan (keep : α → α → α) : List α → Option α
  | [] => none
  | x :: xs => some (xs.foldl keep x)

/-- `min_by`: a later element replaces the current one only if it is smaller. -/
def minBy : List α → Option α := scan fun x y => if cmp x y = .gt then y else x

/-- `max_by`: a later element replaces the current one unless it is smaller. -/
def maxBy : List α → Option α := scan fun x y => if cmp x y = .gt then x else y

theorem scan_isSome (keep : α → α → α) (xs : List α) : (scan keep xs).isSome ↔ xs ≠ [] := by
  cases xs <;> simp [scan]

theorem foldl_keep_mem {keep : α → α → α} (hkeep : ∀ x y, keep x y = x ∨ keep x y = y)
    (x : α) (xs : List α) : xs.foldl keep x ∈ x :: xs := by
  induction xs generalizing x with
  | nil => simp
  | cons y xs ih =>
    rw [List.foldl_cons]
    have hmem := ih (keep x y)
    rcases hkeep x y with hxy | hxy
    · rw [hxy] at hmem ⊢
      rcases List.mem_cons.mp hmem with h | h
      · exact List.mem_cons.mpr (Or.inl h)
      · exact List.mem_cons_of_mem _ (List.mem_cons_of_mem _ h)
    · rw [hxy] at hmem ⊢
      exact List.mem_cons_of_mem _ hmem

/-- A pass that always keeps one of the two elements returns an element. -/
theorem mem_of_scan {keep : α → α → α} (hkeep : ∀ x y, keep x y = x ∨ keep x y = y)
    {xs : List α} {a : α} (h : scan keep xs = some a) : a ∈ xs := by
  cases xs with
  | nil => cases h
  | cons x xs =>
    rw [← Option.some.inj h]
    exact foldl_keep_mem hkeep x xs

theorem mem_of_minBy {xs : List α} {a : α} (h : minBy cmp xs = some a) : a ∈ xs :=
  mem_of_scan (fun x y => by by_cases hxy : cmp x y = .gt <;> simp [hxy]) h

theorem minBy_isSome (xs : List α) : (minBy cmp xs).isSome ↔ xs ≠ [] :=
  scan_isSome _ xs

/-! ## Which element is kept -/

theorem scan_concat (keep : α → α → α) (xs : List α) (x : α) :
    scan keep (xs ++ [x]) = some (((scan keep xs).map fun y => keep y x).getD x) := by
  cases xs with
  | nil => rfl
  | cons y xs => simp [scan]

/-- `a` beats everything after it, and nothing before it beats `a`. -/
def Kept (R : α → α → Prop) (xs : List α) (a : α) : Prop :=
  ∃ l r, xs = l ++ a :: r ∧ (∀ b ∈ l, ¬ R b a) ∧ ∀ b ∈ r, R a b

section Kept

variable {R : α → α → Prop} {xs : List α}

theorem Kept.unique {a a' : α} (h : Kept R xs a) (h' : Kept R xs a') : a = a' := by
  obtain ⟨l, r, rfl, hl, hr⟩ := h
  obtain ⟨l', r', hsplit, hl', hr'⟩ := h'
  rcases List.append_eq_append_iff.mp hsplit with ⟨m, rfl, hm⟩ | ⟨m, rfl, hm⟩
  · cases m with
    | nil => exact (List.cons.inj hm).1
    | cons b m =>
      obtain ⟨rfl, rfl⟩ := List.cons.inj hm
      exact absurd (hr a' (by simp)) (hl' a (by simp))
  · cases m with
    | nil => exact (List.cons.inj hm).1.symm
    | cons b m =>
      obtain ⟨rfl, rfl⟩ := List.cons.inj hm
      exact absurd (hr' a (by simp)) (hl a' (by simp))

/-- A new last element that is beaten leaves the kept one in place. -/
theorem Kept.concat {y x : α} (h : Kept R xs y) (hyx : R y x) : Kept R (xs ++ [x]) y := by
  obtain ⟨l, r, rfl, hl, hr⟩ := h
  refine ⟨l, r ++ [x], by simp, hl, fun b hb => ?_⟩
  rcases List.mem_append.mp hb with hb | hb
  · exact hr b hb
  · rw [List.mem_singleton.mp hb]
    exact hyx

/-- One that is not is kept instead. -/
theorem Kept.replace (htrans : ∀ a b c, R a b → R b c → R a c)
    (hneg : ∀ a b c, ¬ R a b → ¬ R b c → ¬ R a c) {y x : α} (h : Kept R xs y) (hyx : ¬ R y x) :
    Kept R (xs ++ [x]) x := by
  obtain ⟨l, r, rfl, hl, hr⟩ := h
  refine ⟨l ++ y :: r, [], rfl, fun b hb => ?_, by simp⟩
  rcases List.mem_append.mp hb with hb | hb
  · exact hneg b y x (hl b hb) hyx
  · rcases List.mem_cons.mp hb with rfl | hb
    · exact hyx
    · exact fun hbx => hyx (htrans y b x (hr b hb) hbx)

variable [DecidableRel R]

theorem kept_of_scan (htrans : ∀ a b c, R a b → R b c → R a c)
    (hneg : ∀ a b c, ¬ R a b → ¬ R b c → ¬ R a c) {a : α}
    (h : scan (fun x y => if R x y then x else y) xs = some a) : Kept R xs a := by
  induction xs using List.reverseRecOn generalizing a with
  | nil => cases h
  | append_singleton xs x ih =>
    rw [scan_concat] at h
    cases hxs : scan (fun x y => if R x y then x else y) xs with
    | none =>
      rw [hxs] at h
      obtain rfl := Option.some.inj h
      have hnil : xs = [] := by
        cases xs with
        | nil => rfl
        | cons y xs => cases hxs
      exact ⟨[], [], by simp [hnil], by simp, by simp⟩
    | some y =>
      rw [hxs, Option.map_some, Option.getD_some] at h
      obtain rfl := Option.some.inj h
      by_cases hyx : R y x
      · rw [if_pos hyx]
        exact (ih hxs).concat hyx
      · rw [if_neg hyx]
        exact (ih hxs).replace htrans hneg hyx

/-- The element kept by a pass that drops `x` for a later `y` unless `R x y`. -/
theorem scan_eq_some_iff (htrans : ∀ a b c, R a b → R b c → R a c)
    (hneg : ∀ a b c, ¬ R a b → ¬ R b c → ¬ R a c) (xs : List α) (a : α) :
    scan (fun x y => if R x y then x else y) xs = some a ↔ Kept R xs a := by
  constructor
  · exact kept_of_scan htrans hneg
  · intro hkept
    have hne : xs ≠ [] := by
      obtain ⟨l, r, hsplit, -⟩ := hkept
      simp [hsplit]
    obtain ⟨a', ha'⟩ := Option.isSome_iff_exists.mp ((scan_isSome _ xs).mpr hne)
    rw [ha', (kept_of_scan htrans hneg ha').unique hkept]

end Kept

variable {cmp} [Std.TransCmp cmp]

theorem le_trans_of_ne_gt {a b c : α} (hab : cmp a b ≠ .gt) (hbc : cmp b c ≠ .gt) :
    cmp a c ≠ .gt := by
  have h := Std.TransCmp.isLE_trans (Ordering.ne_gt_iff_isLE.mp hab)
    (Ordering.ne_gt_iff_isLE.mp hbc)
  exact Ordering.ne_gt_iff_isLE.mpr h

/-- `min_by` keeps the first of the smallest elements. -/
theorem minBy_eq_some_iff (xs : List α) (a : α) :
    minBy cmp xs = some a ↔
      ∃ l r, xs = l ++ a :: r ∧ (∀ b ∈ l, cmp b a = .gt) ∧ ∀ b ∈ r, cmp a b ≠ .gt := by
  have h := scan_eq_some_iff (R := fun x y => cmp x y ≠ .gt)
    (fun _ _ _ hab hbc => le_trans_of_ne_gt hab hbc)
    (fun _ _ _ hab hbc => by
      rw [not_not] at *
      exact Std.TransCmp.gt_trans hab hbc) xs a
  simpa only [minBy, Kept, ne_eq, ite_not, not_not] using h

/-- `max_by` keeps the last of the largest elements. -/
theorem maxBy_eq_some_iff (xs : List α) (a : α) :
    maxBy cmp xs = some a ↔
      ∃ l r, xs = l ++ a :: r ∧ (∀ b ∈ l, cmp b a ≠ .gt) ∧ ∀ b ∈ r, cmp a b = .gt :=
  scan_eq_some_iff (R := fun x y => cmp x y = .gt)
    (fun _ _ _ hab hbc => Std.TransCmp.gt_trans hab hbc)
    (fun _ _ _ hab hbc => le_trans_of_ne_gt hab hbc) xs a

/-! ## When the order of the list does not matter -/

/-- No element is smaller than `a`. -/
def Least (cmp : α → α → Ordering) (xs : List α) (a : α) : Prop :=
  a ∈ xs ∧ ∀ b ∈ xs, cmp a b ≠ .gt

/-- No element is larger than `a`. -/
def Greatest (cmp : α → α → Ordering) (xs : List α) (a : α) : Prop :=
  a ∈ xs ∧ ∀ b ∈ xs, cmp b a ≠ .gt

theorem least_of_minBy {xs : List α} {a : α} (h : minBy cmp xs = some a) : Least cmp xs a := by
  obtain ⟨l, r, rfl, hl, hr⟩ := (minBy_eq_some_iff xs a).mp h
  refine ⟨by simp, fun b hb => ?_⟩
  rcases List.mem_append.mp hb with hb | hb
  · rw [Std.OrientedCmp.lt_of_gt (hl b hb)]
    simp
  · rcases List.mem_cons.mp hb with rfl | hb
    · have hself : cmp b b = .eq := Std.ReflCmp.compare_self
      simp [hself]
    · exact hr b hb

theorem greatest_of_maxBy {xs : List α} {a : α} (h : maxBy cmp xs = some a) :
    Greatest cmp xs a := by
  obtain ⟨l, r, rfl, hl, hr⟩ := (maxBy_eq_some_iff xs a).mp h
  refine ⟨by simp, fun b hb => ?_⟩
  rcases List.mem_append.mp hb with hb | hb
  · exact hl b hb
  · rcases List.mem_cons.mp hb with rfl | hb
    · have hself : cmp b b = .eq := Std.ReflCmp.compare_self
      simp [hself]
    · rw [Std.OrientedCmp.lt_of_gt (hr b hb)]
      simp

/-- A choice of one element by a property of the set of elements is the same
in every order, if the property picks out only one. -/
theorem pick_perm {pick : List α → Option α} {P : List α → α → Prop}
    (hsome : ∀ xs, (pick xs).isSome ↔ xs ≠ []) (hpick : ∀ xs a, pick xs = some a → P xs a)
    (hset : ∀ xs ys a, xs.Perm ys → P ys a → P xs a) {xs ys : List α} (h : xs.Perm ys)
    (hunique : ∀ a b, P xs a → P xs b → a = b) : pick xs = pick ys := by
  by_cases hnil : xs = []
  · subst hnil
    rw [h.nil_eq]
  · have hnil' : ys ≠ [] := fun hys => hnil (by rw [hys] at h; exact h.eq_nil)
    obtain ⟨a, hx⟩ := Option.isSome_iff_exists.mp ((hsome xs).mpr hnil)
    obtain ⟨b, hy⟩ := Option.isSome_iff_exists.mp ((hsome ys).mpr hnil')
    rw [hx, hy, hunique a b (hpick xs a hx) (hset xs ys b h (hpick ys b hy))]

theorem minBy_perm {xs ys : List α} (h : xs.Perm ys)
    (hunique : ∀ a b, Least cmp xs a → Least cmp xs b → a = b) :
    minBy cmp xs = minBy cmp ys := by
  refine pick_perm (minBy_isSome cmp) (fun _ _ => least_of_minBy) ?_ h hunique
  rintro xs ys a h ⟨hmem, hle⟩
  exact ⟨h.mem_iff.mpr hmem, fun b hb => hle b (h.mem_iff.mp hb)⟩

theorem maxBy_perm {xs ys : List α} (h : xs.Perm ys)
    (hunique : ∀ a b, Greatest cmp xs a → Greatest cmp xs b → a = b) :
    maxBy cmp xs = maxBy cmp ys := by
  refine pick_perm (fun xs => scan_isSome _ xs) (fun _ _ => greatest_of_maxBy) ?_ h hunique
  rintro xs ys a h ⟨hmem, hle⟩
  exact ⟨h.mem_iff.mpr hmem, fun b hb => hle b (h.mem_iff.mp hb)⟩

end Extremum
