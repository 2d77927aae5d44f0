import Mathlib.Data.List.TakeWhile
import Mathlib.Order.Bounds.Basic

/-!
# Stepping down a grid

A search that starts at `size` and goes down in steps of `d`, over positive
sizes only, until a test accepts.  `isGreatest_of_search` says what is found
for an arbitrary test; the last section compares it with the true optimum of a
test that accepts everything below what it accepts.
-/

namespace GridSearch

/-! ## The grid -/

/-- `size, size - d, size - 2 * d, …`, as long as it is positive. -/
def grid (d size : Nat) : List Nat :=
  (List.range ((size + d - 1) / d)).map fun k => size - k * d

variable {d size : Nat}

theorem lt_points_iff (hd : 0 < d) (k : Nat) : k < (size + d - 1) / d ↔ k * d < size := by
  rw [Nat.lt_iff_add_one_le, Nat.le_div_iff_mul_le hd, Nat.succ_mul]
  omega

theorem mem_grid_iff (hd : 0 < d) (n : Nat) :
    n ∈ grid d size ↔ ∃ k, k * d < size ∧ n = size - k * d := by
  simp only [grid, List.mem_map, List.mem_range, lt_points_iff hd]
  constructor
  · rintro ⟨k, hk, rfl⟩
    exact ⟨k, hk, rfl⟩
  · rintro ⟨k, hk, rfl⟩
    exact ⟨k, hk, rfl⟩

theorem pos_of_mem_grid (hd : 0 < d) {n : Nat} (h : n ∈ grid d size) : 0 < n := by
  obtain ⟨k, hk, rfl⟩ := (mem_grid_iff hd n).mp h
  omega

theorem le_of_mem_grid (hd : 0 < d) {n : Nat} (h : n ∈ grid d size) : n ≤ size := by
  obtain ⟨k, hk, rfl⟩ := (mem_grid_iff hd n).mp h
  omega

theorem grid_zero (hd : 0 < d) : grid d 0 = [] := by
  have hpoints : (0 + d - 1) / d = 0 := Nat.div_eq_of_lt (by omega)
  rw [grid, hpoints]
  rfl

/-- The first point, and the grid of what is left. -/
theorem grid_cons (hd : 0 < d) (hsize : 0 < size) :
    grid d size = size :: grid d (size - d) := by
  have hpoints : (size + d - 1) / d = (size - d + d - 1) / d + 1 := by
    rcases Nat.le_total size d with hle | hle
    · have hone : (size + d - 1) / d = 1 := by
        rw [Nat.div_eq_iff hd]
        omega
      have hzero : (size - d + d - 1) / d = 0 := Nat.div_eq_of_lt (by omega)
      omega
    · have hsplit : size + d - 1 = size - d + d - 1 + d := by omega
      rw [hsplit, Nat.add_div_right _ hd]
  rw [grid, hpoints, List.range_succ_eq_map, List.map_cons, List.map_map, Nat.zero_mul,
    Nat.sub_zero]
  congr 1
  refine List.map_congr_left fun k _ => ?_
  show size - (k + 1) * d = size - d - k * d
  rw [Nat.succ_mul]
  omega

/-- The grid goes strictly down. -/
theorem pairwise_grid (size : Nat) (hd : 0 < d) : (grid d size).Pairwise fun a b => b < a := by
  induction size using Nat.strong_induction_on with
  | _ size ih =>
    rcases Nat.eq_zero_or_pos size with rfl | hsize
    · rw [grid_zero hd]
      exact List.Pairwise.nil
    · rw [grid_cons hd hsize, List.pairwise_cons]
      refine ⟨fun n hn => ?_, ih (size - d) (by omega)⟩
      have := le_of_mem_grid hd hn
      have := pos_of_mem_grid hd hn
      omega

/-! ## The search -/

variable (accepts : Nat → Bool)

/-- The first size that is accepted. -/
def search (d size : Nat) : Option Nat := (grid d size).find? accepts

/-- The sizes that are tried and rejected, in order. -/
def rejected (d size : Nat) : List Nat := (grid d size).takeWhile fun n => !accepts n

variable {accepts}

theorem search_zero (accepts : Nat → Bool) (hd : 0 < d) :
    search accepts d 0 = none ∧ rejected accepts d 0 = [] := by
  rw [search, rejected, grid_zero hd]
  exact ⟨rfl, rfl⟩

theorem search_of_accepts (hd : 0 < d) (hsize : 0 < size) (h : accepts size = true) :
    search accepts d size = some size ∧ rejected accepts d size = [] := by
  rw [search, rejected, grid_cons hd hsize]
  exact ⟨List.find?_cons_of_pos h, by simp [h]⟩

/-- A rejected size passes the search on to the next point. -/
theorem search_of_rejects (hd : 0 < d) (hsize : 0 < size) (h : accepts size = false) :
    search accepts d size = search accepts d (size - d) ∧
      rejected accepts d size = size :: rejected accepts d (size - d) := by
  rw [search, rejected, grid_cons hd hsize]
  exact ⟨List.find?_cons_of_neg (by simp [h]), by simp [h, rejected]⟩

/-- The grid up to the point that is found. -/
theorem grid_of_search {n : Nat} (h : search accepts d size = some n) :
    accepts n = true ∧ ∃ later, grid d size = rejected accepts d size ++ n :: later := by
  obtain ⟨haccepts, before, later, hgrid, hbefore⟩ := List.find?_eq_some_iff_append.mp h
  refine ⟨haccepts, later, ?_⟩
  have hstop : (n :: later).takeWhile (fun m => !accepts m) = [] := by simp [haccepts]
  rw [rejected, hgrid, List.takeWhile_append_of_pos hbefore, hstop, List.append_nil]

/-- Whatever the test, the largest point of the grid that it accepts. -/
theorem isGreatest_of_search (hd : 0 < d) {n : Nat} (h : search accepts d size = some n) :
    IsGreatest { m | m ∈ grid d size ∧ accepts m = true } n := by
  have hsorted := pairwise_grid size hd
  obtain ⟨haccepts, later, hgrid⟩ := grid_of_search h
  refine ⟨⟨List.mem_of_find?_eq_some h, haccepts⟩, ?_⟩
  rintro m ⟨hm, hacceptsm⟩
  rw [hgrid] at hm hsorted
  rcases List.mem_append.mp hm with hm | hm
  · have hrejected := List.mem_takeWhile_imp hm
    simp [hacceptsm] at hrejected
  · rcases List.mem_cons.mp hm with rfl | hm
    · exact le_refl m
    · have hlater := (List.pairwise_append.mp hsorted).2.1
      exact Nat.le_of_lt ((List.pairwise_cons.mp hlater).1 m hm)

/-- The search fails only if every point is rejected. -/
theorem rejects_of_search (h : search accepts d size = none) :
    ∀ n ∈ grid d size, accepts n = false := by
  intro n hn
  simpa using List.find?_eq_none.mp h n hn

theorem length_rejected_le (accepts : Nat → Bool) (d size : Nat) :
    (rejected accepts d size).length ≤ (size + d - 1) / d := by
  have hle := (List.takeWhile_sublist (l := grid d size) fun n => !accepts n).length_le
  rwa [grid, List.length_map, List.length_range] at hle

/-! ## Tests that accept everything below what they accept -/

/-- Some point of the grid lies less than a step below `s`. -/
theorem exists_grid_le (hd : 0 < d) {s : Nat} (hs : d ≤ s) (hle : s ≤ size) :
    ∃ n ∈ grid d size, n ≤ s ∧ s < n + d := by
  have hdiv := Nat.div_add_mod (size - s + d - 1) d
  have hmod := Nat.mod_lt (size - s + d - 1) hd
  rw [Nat.mul_comm] at hdiv
  refine ⟨size - (size - s + d - 1) / d * d, (mem_grid_iff hd _).mpr ⟨_, ?_, rfl⟩, ?_, ?_⟩
  · omega
  · omega
  · omega

/-- The last point of the grid. -/
def lastPoint (d size : Nat) : Nat := (size - 1) % d + 1

theorem lastPoint_mem (hd : 0 < d) (hsize : 0 < size) : lastPoint d size ∈ grid d size := by
  have hdiv := Nat.div_add_mod (size - 1) d
  rw [Nat.mul_comm] at hdiv
  refine (mem_grid_iff hd _).mpr ⟨(size - 1) / d, ?_, ?_⟩
  · omega
  · unfold lastPoint
    omega

theorem lastPoint_le (hd : 0 < d) {n : Nat} (h : n ∈ grid d size) : lastPoint d size ≤ n := by
  obtain ⟨k, hk, rfl⟩ := (mem_grid_iff hd n).mp h
  have hsplit : size - 1 = size - 1 - k * d + d * k := by
    rw [Nat.mul_comm d k]
    omega
  have hmod := Nat.mod_le (size - 1 - k * d) d
  rw [lastPoint, hsplit, Nat.add_mul_mod_self_left]
  omega

variable (hdown : ∀ a b, 0 < a → a ≤ b → accepts b = true → accepts a = true)

include hdown

/-- **Near optimal.**  The search ends less than a step below the largest size
that is accepted. -/
theorem search_near_optimal (hd : 0 < d) {s : Nat}
    (hs : IsGreatest { n | n ≤ size ∧ (n = 0 ∨ accepts n = true) } s) :
    (search accepts d size).getD 0 ≤ s ∧ s - (search accepts d size).getD 0 < d := by
  obtain ⟨⟨hle, hopt⟩, hmax⟩ := hs
  have hbest : ∀ n ∈ grid d size, accepts n = true → n ≤ (search accepts d size).getD 0 := by
    intro n hn haccepts
    cases hfound : search accepts d size with
    | none => simp [rejects_of_search hfound n hn] at haccepts
    | some m => exact (isGreatest_of_search hd hfound).2 ⟨hn, haccepts⟩
  constructor
  · cases hfound : search accepts d size with
    | none => exact Nat.zero_le s
    | some n =>
      obtain ⟨hmem, haccepts⟩ := (isGreatest_of_search hd hfound).1
      exact hmax ⟨le_of_mem_grid hd hmem, Or.inr haccepts⟩
  · by_contra hfar
    obtain ⟨n, hn, hns, hsn⟩ := exists_grid_le hd (show d ≤ s by omega) hle
    have haccepts : accepts s = true := by
      rcases hopt with rfl | haccepts
      · omega
      · exact haccepts
    have := hbest n hn (hdown n s (pos_of_mem_grid hd hn) hns haccepts)
    omega

/-- Nothing is found exactly when the last point of the grid is rejected. -/
theorem search_eq_none_iff (hd : 0 < d) (hsize : 0 < size) :
    search accepts d size = none ↔ accepts (lastPoint d size) = false := by
  constructor
  · intro h
    exact rejects_of_search h _ (lastPoint_mem hd hsize)
  · intro hlast
    rw [search, List.find?_eq_none]
    intro n hn haccepts
    have hpos := pos_of_mem_grid hd (lastPoint_mem hd hsize)
    have haccepted := hdown _ n hpos (lastPoint_le hd hn) haccepts
    rw [hlast] at haccepted
    cases haccepted

end GridSearch
