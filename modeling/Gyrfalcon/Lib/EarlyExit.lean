import Mathlib.Data.List.Forall2

/-!
# Loops that end at the first error

A loop over numbered items that skips some of them, reads a value from each
other one, and ends with an error at the first it cannot read.  The number of an
item may show in its error, but not in its value: `Reads` says which values are
read, whatever the number.  `loop_eq_ok_iff` and `loop_eq_error_iff` say what
comes out, and `exists_loop_eq_ok_iff` when nothing stops the loop.  The last
section is about `mapM`, the same loop with nothing to skip and no numbers.
-/

namespace EarlyExit

variable {α β ε : Type*}

section Loop

variable (skip : α → Bool) (read : Nat → α → Except ε β)

/-- One iteration, on an item and its number. -/
def body (taken : List β) (item : α × Nat) : Except ε (List β) :=
  if skip item.1 then .ok taken else (read item.2 item.1).map (taken ++ [·])

/-- The loop over `xs`, numbered from `i` on. -/
def loop (taken : List β) (i : Nat) (xs : List α) : Except ε (List β) :=
  (xs.zipIdx i).foldlM (body skip read) taken

/-- `e` is the error of the first item that is neither skipped nor read, under the
number it has from `i` on. -/
def StopsAt (Reads : α → β → Prop) (i : Nat) (xs : List α) (e : ε) : Prop :=
  ∃ before x after, xs = before ++ x :: after ∧
    (∀ b ∈ before, skip b = false → ∃ y, Reads b y) ∧
    skip x = false ∧ read (i + before.length) x = .error e

end Loop

variable {skip : α → Bool} {read : Nat → α → Except ε β} {taken : List β} {i : Nat} {x : α}
  {xs : List α}

/-! ## One iteration -/

theorem loop_nil : loop skip read taken i [] = .ok taken := rfl

theorem loop_of_skip (h : skip x = true) :
    loop skip read taken i (x :: xs) = loop skip read taken (i + 1) xs := by
  rw [loop, List.zipIdx_cons, List.foldlM_cons, body, if_pos h]
  rfl

theorem loop_of_ok {y : β} (h : skip x = false) (hread : read i x = .ok y) :
    loop skip read taken i (x :: xs) = loop skip read (taken ++ [y]) (i + 1) xs := by
  rw [loop, List.zipIdx_cons, List.foldlM_cons, body, if_neg (by simp [h]), hread]
  rfl

theorem loop_of_error {e : ε} (h : skip x = false) (hread : read i x = .error e) :
    loop skip read taken i (x :: xs) = .error e := by
  rw [loop, List.zipIdx_cons, List.foldlM_cons, body, if_neg (by simp [h]), hread]
  rfl

/-! ## The loop -/

section Reads

variable {Reads : α → β → Prop} (hreads : ∀ i x y, read i x = .ok y ↔ Reads x y)

include hreads

theorem not_reads_of_error {e : ε} (hread : read i x = .error e) (y : β) : ¬ Reads x y := by
  intro hy
  rw [(hreads i x y).mpr hy] at hread
  cases hread

/-- The loop gets through with the values of the items that are not skipped, in order. -/
theorem loop_eq_ok_iff {out : List β} :
    loop skip read taken i xs = .ok out ↔
      ∃ ys, List.Forall₂ Reads (xs.filter fun x => !skip x) ys ∧ out = taken ++ ys := by
  induction xs generalizing taken i with
  | nil => simp [loop_nil, eq_comm]
  | cons x xs ih =>
    cases hskip : skip x with
    | true => simp [loop_of_skip hskip, ih, hskip]
    | false =>
      have hfilter : ((x :: xs).filter fun x => !skip x) = x :: xs.filter fun x => !skip x := by
        simp [hskip]
      rw [hfilter]
      cases hread : read i x with
      | error e =>
        rw [loop_of_error hskip hread]
        refine iff_of_false (nomatch ·) ?_
        rintro ⟨ys, hys, -⟩
        obtain ⟨y, ys, hy, -, -⟩ := List.forall₂_cons_left_iff.mp hys
        exact not_reads_of_error hreads hread y hy
      | ok y =>
        have hy := (hreads i x y).mp hread
        rw [loop_of_ok hskip hread, ih]
        constructor
        · rintro ⟨ys, hys, rfl⟩
          exact ⟨y :: ys, .cons hy hys, by simp⟩
        · rintro ⟨ys, hys, rfl⟩
          obtain ⟨y', ys, hy', htail, rfl⟩ := List.forall₂_cons_left_iff.mp hys
          obtain rfl := Except.ok.inj (((hreads i x y').mpr hy').symm.trans hread)
          exact ⟨ys, htail, by simp⟩

theorem stopsAt_cons_of_pass (hpass : skip x = false → ∃ y, Reads x y) {e : ε} :
    StopsAt skip read Reads i (x :: xs) e ↔ StopsAt skip read Reads (i + 1) xs e := by
  constructor
  · rintro ⟨before, stop, after, hsplit, hbefore, hskip, hread⟩
    rcases List.cons_eq_append_iff.mp hsplit with ⟨rfl, hcons⟩ | ⟨before, rfl, rfl⟩
    · obtain ⟨rfl, rfl⟩ := List.cons.inj hcons
      obtain ⟨y, hy⟩ := hpass hskip
      exact absurd hy (not_reads_of_error hreads hread y)
    · rw [List.length_cons, Nat.add_left_comm, Nat.add_comm] at hread
      exact ⟨before, stop, after, rfl, fun b hb => hbefore b (List.mem_cons_of_mem x hb), hskip,
        hread⟩
  · rintro ⟨before, stop, after, rfl, hbefore, hskip, hread⟩
    refine ⟨x :: before, stop, after, rfl, List.forall_mem_cons.mpr ⟨hpass, hbefore⟩, hskip, ?_⟩
    rw [List.length_cons, Nat.add_left_comm, Nat.add_comm]
    exact hread

theorem stopsAt_cons_of_error {e e' : ε} (hskip : skip x = false) (hread : read i x = .error e') :
    StopsAt skip read Reads i (x :: xs) e ↔ e' = e := by
  constructor
  · rintro ⟨before, stop, after, hsplit, hbefore, -, hstop⟩
    rcases List.cons_eq_append_iff.mp hsplit with ⟨rfl, hcons⟩ | ⟨before, rfl, rfl⟩
    · obtain ⟨rfl, rfl⟩ := List.cons.inj hcons
      exact Except.error.inj (hread.symm.trans hstop)
    · obtain ⟨y, hy⟩ := hbefore x List.mem_cons_self hskip
      exact absurd hy (not_reads_of_error hreads hread y)
  · rintro rfl
    exact ⟨[], x, xs, rfl, by simp, hskip, hread⟩

/-- The loop fails with the error of the first item that is neither skipped nor read. -/
theorem loop_eq_error_iff {e : ε} :
    loop skip read taken i xs = .error e ↔ StopsAt skip read Reads i xs e := by
  induction xs generalizing taken i with
  | nil => simp [loop_nil, StopsAt]
  | cons x xs ih =>
    cases hskip : skip x with
    | true =>
      have hpass : skip x = false → ∃ y, Reads x y := by simp [hskip]
      rw [loop_of_skip hskip, ih, stopsAt_cons_of_pass hreads hpass]
    | false =>
      cases hread : read i x with
      | ok y =>
        rw [loop_of_ok hskip hread, ih,
          stopsAt_cons_of_pass hreads fun _ => ⟨y, (hreads i x y).mp hread⟩]
      | error e' =>
        rw [loop_of_error hskip hread, stopsAt_cons_of_error hreads hskip hread,
          Except.error.injEq]

/-- Nothing stops the loop exactly when every item is skipped or read. -/
theorem exists_loop_eq_ok_iff :
    (∃ out, loop skip read taken i xs = .ok out) ↔
      ∀ x ∈ xs, skip x = false → ∃ y, Reads x y := by
  induction xs generalizing taken i with
  | nil => simp [loop_nil]
  | cons x xs ih =>
    rw [List.forall_mem_cons]
    cases hskip : skip x with
    | true => simp [loop_of_skip hskip, ih]
    | false =>
      cases hread : read i x with
      | ok y =>
        rw [loop_of_ok hskip hread, ih]
        exact (and_iff_right fun _ => ⟨y, (hreads i x y).mp hread⟩).symm
      | error e =>
        rw [loop_of_error hskip hread]
        refine iff_of_false (by simp) ?_
        rintro ⟨hx, -⟩
        obtain ⟨y, hy⟩ := hx rfl
        exact not_reads_of_error hreads hread y hy

end Reads

/-! ## Without numbers -/

/-- One item that cannot be read fails the whole traversal. -/
theorem exists_mapM_eq_error {f : α → Except ε β} {e : ε} (hmem : x ∈ xs)
    (h : f x = .error e) : ∃ e', xs.mapM f = .error e' := by
  induction xs with
  | nil => cases hmem
  | cons y xs ih =>
    rw [List.mapM_cons]
    cases hy : f y with
    | error e' => exact ⟨e', rfl⟩
    | ok value =>
      rcases List.mem_cons.mp hmem with rfl | hmem
      · rw [h] at hy
        cases hy
      · obtain ⟨e', htail⟩ := ih hmem
        exact ⟨e', by rw [htail]; rfl⟩

end EarlyExit
