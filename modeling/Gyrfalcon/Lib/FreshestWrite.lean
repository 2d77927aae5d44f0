import Gyrfalcon.Lib.Extremum
import Gyrfalcon.Lib.LastWrite
import Mathlib.Order.Defs.LinearOrder

/-!
# Maps that keep the freshest write

A stream writes to a finite map as in `LastWrite`, but every value carries a
rank, and a write of lower rank than what is stored is dropped.
`lookup_foldl_write` says what is stored in the end: of the values written
under a key, the last one of largest rank.
-/

namespace FreshestWrite

open LastWrite (HashMap written writesTo)

variable {K V I : Type} [DecidableEq K]

/-- One input of the stream. -/
def write (w : I → Option (K × V)) (rank : V → Nat) (m : HashMap K V) (i : I) : HashMap K V :=
  match w i with
  | some (k, v) =>
    match m.lookup k with
    | some old => if rank v < rank old then m else m.insert k v
    | none => m.insert k v
  | none => m

/-- The order of ranks. -/
def byRank (rank : V → Nat) (a b : V) : Ordering := compare (rank a) (rank b)

instance (rank : V → Nat) : Std.TransCmp (byRank rank) :=
  inferInstanceAs (Std.TransCmp (compareOn rank))

theorem byRank_eq_gt_iff (rank : V → Nat) (a b : V) : byRank rank a b = .gt ↔ rank b < rank a :=
  Nat.compare_eq_gt

variable (w : I → Option (K × V)) (rank : V → Nat) (k : K)

theorem lookup_write (m : HashMap K V) (i : I) :
    (write w rank m i).lookup k =
      match written w k i with
      | none => m.lookup k
      | some v => some (((m.lookup k).map fun old => if rank v < rank old then old else v).getD v)
      := by
  unfold write written
  cases hw : w i with
  | none => rfl
  | some kv =>
    obtain ⟨k', v⟩ := kv
    by_cases hk : k' = k
    · subst hk
      cases hm : m.lookup k' with
      | none => simp [hm]
      | some old =>
        by_cases hrank : rank v < rank old
        · simp [hrank, hm]
        · simp [hrank, hm]
    · have hne : ∀ v, (m.insert k' v).lookup k = m.lookup k := fun v =>
        AList.lookup_insert_ne (Ne.symm hk)
      simp only [hk, ↓reduceIte]
      cases hm : m.lookup k' with
      | none => exact hne v
      | some old =>
        by_cases hrank : rank v < rank old
        · simp [hrank]
        · simp [hrank, hne]

/-- **The freshest write wins**, and of equally fresh ones the last. -/
theorem lookup_foldl_write (is : List I) :
    (is.foldl (write w rank) ∅).lookup k =
      Extremum.maxBy (byRank rank) (writesTo w k is) := by
  induction is using List.reverseRecOn with
  | nil => rfl
  | append_singleton is i ih =>
    rw [List.foldl_append, List.foldl_cons, List.foldl_nil, lookup_write, ih,
      LastWrite.writesTo_append]
    cases hi : written w k i with
    | none => simp [writesTo, hi]
    | some v =>
      have hsingle : writesTo w k [i] = [v] := by simp [writesTo, hi]
      rw [hsingle, Extremum.maxBy, Extremum.scan_concat]
      simp only [byRank_eq_gt_iff]

/-- Which input wrote the stored value: none before it is fresher, and none
after it as fresh. -/
theorem lookup_foldl_write_eq_some_iff (is : List I) (v : V) :
    (is.foldl (write w rank) ∅).lookup k = some v ↔
      ∃ before i later, is = before ++ i :: later ∧ w i = some (k, v) ∧
        (∀ j ∈ before, ∀ v', w j = some (k, v') → rank v' ≤ rank v) ∧
        ∀ j ∈ later, ∀ v', w j = some (k, v') → rank v' < rank v := by
  rw [lookup_foldl_write, Extremum.maxBy_eq_some_iff]
  simp only [ne_eq, byRank_eq_gt_iff, not_lt, writesTo]
  constructor
  · rintro ⟨l, r, hsplit, hl, hr⟩
    obtain ⟨before, rest, rfl, rfl, hrest⟩ := List.filterMap_eq_append_iff.mp hsplit
    obtain ⟨skipped, i, later, rfl, hskipped, hi, rfl⟩ := List.filterMap_eq_cons_iff.mp hrest
    refine ⟨before ++ skipped, i, later, by simp, (LastWrite.written_eq_some_iff w k i v).mp hi,
      fun j hj v' hv' => ?_, fun j hj v' hv' => ?_⟩
    · have hwritten := (LastWrite.written_eq_some_iff w k j v').mpr hv'
      rcases List.mem_append.mp hj with hj | hj
      · exact hl v' (List.mem_filterMap.mpr ⟨j, hj, hwritten⟩)
      · rw [hskipped j hj] at hwritten
        cases hwritten
    · have hwritten := (LastWrite.written_eq_some_iff w k j v').mpr hv'
      exact hr v' (List.mem_filterMap.mpr ⟨j, hj, hwritten⟩)
  · rintro ⟨before, i, later, rfl, hi, hbefore, hlater⟩
    refine ⟨before.filterMap (written w k), later.filterMap (written w k), ?_, ?_, ?_⟩
    · rw [List.filterMap_append,
        List.filterMap_cons_some ((LastWrite.written_eq_some_iff w k i v).mpr hi)]
    · intro v' hv'
      obtain ⟨j, hj, hwritten⟩ := List.mem_filterMap.mp hv'
      exact hbefore j hj v' ((LastWrite.written_eq_some_iff w k j v').mp hwritten)
    · intro v' hv'
      obtain ⟨j, hj, hwritten⟩ := List.mem_filterMap.mp hv'
      exact hlater j hj v' ((LastWrite.written_eq_some_iff w k j v').mp hwritten)

/-- Values of different ranks: the stored one does not depend on the order. -/
theorem lookup_foldl_write_perm {xs ys : List I} (h : xs.Perm ys)
    (hranks : (writesTo w k xs).Pairwise fun a b => rank a ≠ rank b) :
    (xs.foldl (write w rank) ∅).lookup k = (ys.foldl (write w rank) ∅).lookup k := by
  rw [lookup_foldl_write, lookup_foldl_write]
  refine Extremum.maxBy_perm (LastWrite.writesTo_perm w k h) ?_
  rintro a b ⟨ha, hmaxa⟩ ⟨hb, hmaxb⟩
  have hab := hmaxa b hb
  have hba := hmaxb a ha
  rw [Ne, byRank_eq_gt_iff] at hab hba
  have hrank : rank a = rank b := by omega
  exact List.inj_on_of_nodup_map (List.pairwise_map.mpr hranks) ha hb hrank

end FreshestWrite
