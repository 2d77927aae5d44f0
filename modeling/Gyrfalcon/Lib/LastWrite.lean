import Mathlib.Data.List.AList
import Mathlib.Data.List.Chain
import Mathlib.Data.List.Induction

/-!
# Maps written by a stream

`HashMap K V` is a finite map with its entries in some order.  A stream of
inputs writes to it through `w : I → Option (K × V)`: an input either writes
one key or nothing.  `lookup_foldl_write` says what is stored under a key after
the whole stream: the last value written there, or what was there before.
The last section relates "last" to "largest" for values that carry a rank.
-/

namespace LastWrite

/-- A finite map, entries in iteration order, one per key. -/
abbrev HashMap (K V : Type) := AList (fun _ : K => V)

variable {K V I : Type} [DecidableEq K]

/-- One input of the stream. -/
def write (w : I → Option (K × V)) (m : HashMap K V) (i : I) : HashMap K V :=
  match w i with
  | some (k, v) => m.insert k v
  | none => m

/-- The value `i` writes under `k`, if any. -/
def written (w : I → Option (K × V)) (k : K) (i : I) : Option V :=
  match w i with
  | some (k', v) => if k' = k then some v else none
  | none => none

/-- All values the stream writes under `k`, in order. -/
def writesTo (w : I → Option (K × V)) (k : K) (is : List I) : List V :=
  is.filterMap (written w k)

variable (w : I → Option (K × V)) (k : K)

theorem written_eq_some_iff (i : I) (v : V) : written w k i = some v ↔ w i = some (k, v) := by
  unfold written
  cases hw : w i with
  | none => simp
  | some kv =>
    obtain ⟨k', v'⟩ := kv
    by_cases hk : k' = k
    · simp [hk]
    · simp [hk]

theorem lookup_write (m : HashMap K V) (i : I) :
    (write w m i).lookup k = (written w k i).or (m.lookup k) := by
  unfold write written
  cases hw : w i with
  | none => simp
  | some kv =>
    obtain ⟨k', v⟩ := kv
    by_cases hk : k' = k
    · subst hk
      simp
    · simp only [hk, ↓reduceIte, Option.none_or]
      exact AList.lookup_insert_ne (Ne.symm hk)

/-- **Last write wins.** -/
theorem lookup_foldl_write (m : HashMap K V) (is : List I) :
    (is.foldl (write w) m).lookup k = (writesTo w k is).getLast?.or (m.lookup k) := by
  induction is generalizing m with
  | nil => simp [writesTo]
  | cons i is ih =>
    rw [List.foldl_cons, ih, lookup_write, writesTo, writesTo, List.filterMap_cons]
    cases hi : written w k i with
    | none => simp
    | some v =>
      rw [Option.some_or, List.getLast?_cons]
      cases (List.filterMap (written w k) is).getLast? with
      | none => rfl
      | some v' => rfl

theorem writesTo_append (xs ys : List I) :
    writesTo w k (xs ++ ys) = writesTo w k xs ++ writesTo w k ys :=
  List.filterMap_append

/-- A part of what is written. -/
theorem writesTo_map {V' : Type} (f : V → V') (is : List I) :
    writesTo (fun i => (w i).map fun kv => (kv.1, f kv.2)) k is = (writesTo w k is).map f := by
  rw [writesTo, writesTo, List.map_filterMap]
  refine List.filterMap_congr fun i _ => ?_
  unfold written
  cases hw : w i with
  | none => simp [hw]
  | some kv =>
    by_cases hk : kv.1 = k
    · simp [hw, hk]
    · simp [hw, hk]

theorem writesTo_perm {xs ys : List I} (h : xs.Perm ys) :
    (writesTo w k xs).Perm (writesTo w k ys) :=
  h.filterMap _

/-! ## Ranked values -/

/-- In a list of increasing rank, the last value is the one of largest rank. -/
theorem getLast?_eq_some_iff_of_pairwise {rank : V → Nat} {vs : List V}
    (hvs : vs.Pairwise (fun a b => rank a < rank b)) (v : V) :
    vs.getLast? = some v ↔ v ∈ vs ∧ ∀ v' ∈ vs, rank v' ≤ rank v := by
  induction vs using List.reverseRecOn with
  | nil => simp
  | append_singleton vs x _ =>
    rw [List.getLast?_concat, Option.some.injEq]
    have hlt : ∀ a ∈ vs, rank a < rank x := fun a ha =>
      (List.pairwise_append.mp hvs).2.2 a ha x (List.mem_singleton_self x)
    constructor
    · rintro rfl
      refine ⟨by simp, fun v' hv' => ?_⟩
      rcases List.mem_append.mp hv' with hv' | hv'
      · exact Nat.le_of_lt (hlt v' hv')
      · rw [List.mem_singleton.mp hv']
    · rintro ⟨hv, hmax⟩
      rcases List.mem_append.mp hv with hv | hv
      · have h1 := hlt v hv
        have h2 := hmax x (by simp)
        omega
      · exact (List.mem_singleton.mp hv).symm

/-- `v` has the largest rank among the values written under `k`. -/
def Freshest (rank : V → Nat) (is : List I) (v : V) : Prop :=
  v ∈ writesTo w k is ∧ ∀ v' ∈ writesTo w k is, rank v' ≤ rank v

/-- The value stored under `k` by a stream that starts from the empty map. -/
theorem lookup_foldl_write_empty (is : List I) :
    (is.foldl (write w) ∅).lookup k = (writesTo w k is).getLast? := by
  rw [lookup_foldl_write, AList.lookup_empty, Option.or_none]

/-- The last value written comes from the last input that writes under `k`. -/
theorem getLast?_writesTo (is : List I) :
    (writesTo w k is).getLast? =
      (is.filter fun i => (written w k i).isSome).getLast?.bind (written w k) := by
  induction is using List.reverseRecOn with
  | nil => rfl
  | append_singleton is i ih =>
    rw [writesTo_append, List.filter_append]
    cases hi : written w k i with
    | none => simpa [writesTo, hi] using ih
    | some v => simp [writesTo, hi]

variable {w k}

theorem freshest_iff_of_perm {rank : V → Nat} {xs ys : List I} (h : xs.Perm ys) (v : V) :
    Freshest w k rank xs v ↔ Freshest w k rank ys v := by
  have hmem : ∀ v, v ∈ writesTo w k xs ↔ v ∈ writesTo w k ys := fun v =>
    (writesTo_perm w k h).mem_iff
  simp only [Freshest, hmem]

/-- **Never backwards.**  No write lowers the rank of what is stored under `k`,
if and only if the ranks written under `k` never go down. -/
theorem rank_le_iff_pairwise (rank : V → Nat) (is : List I) :
    (∀ xs i ys, is = xs ++ i :: ys → ∀ v v', (xs.foldl (write w) ∅).lookup k = some v →
        (write w (xs.foldl (write w) ∅) i).lookup k = some v' → rank v ≤ rank v') ↔
      (writesTo w k is).Pairwise (fun a b => rank a ≤ rank b) := by
  have : IsTrans V fun a b => rank a ≤ rank b := ⟨fun a b c hab hbc => Nat.le_trans hab hbc⟩
  induction is using List.reverseRecOn with
  | nil => simp [writesTo]
  | append_singleton is j ih =>
    have hlast : (∀ v v', (is.foldl (write w) ∅).lookup k = some v →
          (write w (is.foldl (write w) ∅) j).lookup k = some v' → rank v ≤ rank v') ↔
        ∀ v ∈ (writesTo w k is).getLast?, ∀ v' ∈ (writesTo w k [j]).head?, rank v ≤ rank v' := by
      simp only [lookup_write, lookup_foldl_write_empty, Option.mem_def, writesTo,
        List.filterMap_cons, List.filterMap_nil]
      cases written w k j with
      | none => simp +contextual
      | some v' => simp +contextual
    have hsingle : (writesTo w k [j]).IsChain fun a b => rank a ≤ rank b := by
      unfold writesTo
      cases hj : written w k j <;> simp [hj]
    rw [writesTo_append, ← List.isChain_iff_pairwise, List.isChain_append, ← hlast,
      List.isChain_iff_pairwise]
    constructor
    · intro h
      refine ⟨ih.mp fun xs i ys hsplit => h xs i (ys ++ [j]) (by simp [hsplit]), hsingle, ?_⟩
      exact h is j [] rfl
    · rintro ⟨hinit, -, hstep⟩ xs i ys hsplit
      have hinit := ih.mpr hinit
      rcases List.eq_nil_or_concat ys with rfl | ⟨ys, j', rfl⟩
      · obtain ⟨rfl, hj⟩ := List.append_inj' hsplit rfl
        cases hj
        exact hstep
      · have hsplit : is ++ [j] = (xs ++ i :: ys) ++ [j'] := by simpa using hsplit
        exact hinit xs i ys (List.append_inj' hsplit rfl).1

end LastWrite
