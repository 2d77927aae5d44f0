import Mathlib.Data.List.Basic
import Mathlib.Data.List.Induction

/-!
# Runs of a step function

A machine is a function `f : S → I → S × O`: it consumes one input, moves to a
new state and emits one output.  `steps` is the list of all steps of a run,
`final` the state after it.  The rules at the end turn a fact about one step
into a fact about every run.
-/

namespace Machine

variable {S I O : Type*}

/-- One step of a run: the state before, the input, the output, the state after. -/
structure Step (S I O : Type*) where
  pre : S
  input : I
  output : O
  post : S

/-- The state after consuming `is` from `s`. -/
def final (f : S → I → S × O) (s : S) (is : List I) : S :=
  is.foldl (fun s i => (f s i).1) s

/-- All steps of the run that consumes `is` from `s`, in order. -/
def steps (f : S → I → S × O) : S → List I → List (Step S I O)
  | _, [] => []
  | s, i :: is => ⟨s, i, (f s i).2, (f s i).1⟩ :: steps f (f s i).1 is

/-- The outputs of the run, in order. -/
def outputs (f : S → I → S × O) (s : S) (is : List I) : List O :=
  (steps f s is).map Step.output

variable (f : S → I → S × O) (s : S)

@[simp] theorem final_nil : final f s [] = s := rfl

@[simp] theorem final_cons (i : I) (is : List I) :
    final f s (i :: is) = final f (f s i).1 is := rfl

@[simp] theorem steps_nil : steps f s [] = [] := rfl

@[simp] theorem steps_cons (i : I) (is : List I) :
    steps f s (i :: is) = ⟨s, i, (f s i).2, (f s i).1⟩ :: steps f (f s i).1 is := rfl

@[simp] theorem outputs_nil : outputs f s [] = [] := rfl

@[simp] theorem outputs_cons (i : I) (is : List I) :
    outputs f s (i :: is) = (f s i).2 :: outputs f (f s i).1 is := rfl

theorem final_append (xs ys : List I) :
    final f s (xs ++ ys) = final f (final f s xs) ys :=
  List.foldl_append

theorem steps_append (xs ys : List I) :
    steps f s (xs ++ ys) = steps f s xs ++ steps f (final f s xs) ys := by
  induction xs generalizing s with
  | nil => rfl
  | cons i xs ih => simp [ih]

theorem outputs_append (xs ys : List I) :
    outputs f s (xs ++ ys) = outputs f s xs ++ outputs f (final f s xs) ys := by
  unfold outputs
  rw [steps_append, List.map_append]

theorem length_outputs (is : List I) : (outputs f s is).length = is.length := by
  induction is generalizing s with
  | nil => rfl
  | cons i is ih => simp [ih]

theorem outputs_take (n : Nat) (is : List I) :
    outputs f s (is.take n) = (outputs f s is).take n := by
  induction is generalizing s n with
  | nil => simp
  | cons i is ih =>
    cases n with
    | zero => rfl
    | succ n => simp [ih]

/-- The output for an input is the one of the step that consumes it. -/
theorem outputs_getElem? (xs : List I) (i : I) (ys : List I) :
    (outputs f s (xs ++ i :: ys))[xs.length]? = some (f (final f s xs) i).2 := by
  have hle : (outputs f s xs).length ≤ xs.length := Nat.le_of_eq (length_outputs f s xs)
  rw [outputs_append, List.getElem?_append_right hle, length_outputs,
    Nat.sub_self, outputs_cons]
  rfl

/-- A step of a run starts in the state the inputs before it lead to. -/
theorem mem_steps_iff (is : List I) (t : Step S I O) :
    t ∈ steps f s is ↔ ∃ xs ys, is = xs ++ t.input :: ys ∧ t.pre = final f s xs ∧
      f t.pre t.input = (t.post, t.output) := by
  induction is generalizing s with
  | nil => simp
  | cons i is ih =>
    rw [steps_cons, List.mem_cons, ih]
    constructor
    · rintro (rfl | ⟨xs, ys, rfl, hpre, hstep⟩)
      · exact ⟨[], is, rfl, rfl, rfl⟩
      · exact ⟨i :: xs, ys, rfl, hpre, hstep⟩
    · rintro ⟨xs, ys, his, hpre, hstep⟩
      cases xs with
      | nil =>
        simp only [List.nil_append, List.cons.injEq] at his
        obtain ⟨hi, -⟩ := his
        rw [final_nil] at hpre
        cases t with
        | mk pre input output post =>
          simp only at hpre hi hstep
          subst hpre hi
          simp [hstep]
      | cons x xs =>
        simp only [List.cons_append, List.cons.injEq] at his
        obtain ⟨rfl, his⟩ := his
        exact Or.inr ⟨xs, ys, his, hpre, hstep⟩

theorem input_mem {f : S → I → S × O} {s : S} {is : List I} {t : Step S I O}
    (h : t ∈ steps f s is) : t.input ∈ is := by
  obtain ⟨xs, ys, rfl, -⟩ := (mem_steps_iff f s is t).mp h
  exact List.mem_append_right xs List.mem_cons_self

theorem step_mem_steps (xs : List I) (i : I) (ys : List I) :
    ⟨final f s xs, i, (f (final f s xs) i).2, (f (final f s xs) i).1⟩ ∈ steps f s (xs ++ i :: ys) :=
  (mem_steps_iff f s _ _).mpr ⟨xs, ys, rfl, rfl, rfl⟩

variable {f s}

/-- **Projection rule.**  A part of the state that every step updates by `g`
alone is folded by `g` over a run. -/
theorem final_map {T : Type*} {p : S → T} {g : T → I → T} (h : ∀ s i, p (f s i).1 = g (p s) i)
    (is : List I) : p (final f s is) = is.foldl g (p s) := by
  induction is generalizing s with
  | nil => rfl
  | cons i is ih => rw [final_cons, ih, h, List.foldl_cons]

/-- **Invariant rule.**  What every step preserves holds at the end of a run. -/
theorem final_invariant {Inv : S → Prop} (hstep : ∀ s i, Inv s → Inv (f s i).1)
    (hs : Inv s) (is : List I) : Inv (final f s is) := by
  induction is generalizing s with
  | nil => exact hs
  | cons i is ih => exact ih (hstep s i hs)

/-- **History rule, for good inputs.**  An invariant that also reads the outputs
emitted so far, kept by the steps that start with a good input. -/
theorem history_invariant_of_steps {Inv : List O → S → Prop} {good : S → I → Prop}
    (hstep : ∀ os s i, good s i → Inv os s → Inv (os ++ [(f s i).2]) (f s i).1)
    (hs : Inv [] s) (is : List I) (hgood : ∀ t ∈ steps f s is, good t.pre t.input) :
    Inv (outputs f s is) (final f s is) := by
  have h : ∀ (os : List O) (s : S) (is : List I), (∀ t ∈ steps f s is, good t.pre t.input) →
      Inv os s → Inv (os ++ outputs f s is) (final f s is) := by
    intro os s is hgood hos
    induction is generalizing os s with
    | nil => simpa using hos
    | cons i is ih =>
      rw [steps_cons, List.forall_mem_cons] at hgood
      have := ih (os ++ [(f s i).2]) (f s i).1 hgood.2 (hstep os s i hgood.1 hos)
      simpa using this
  simpa using h [] s is hgood hs

/-- **History rule.** -/
theorem history_invariant {Inv : List O → S → Prop}
    (hstep : ∀ os s i, Inv os s → Inv (os ++ [(f s i).2]) (f s i).1)
    (hs : Inv [] s) (is : List I) : Inv (outputs f s is) (final f s is) :=
  history_invariant_of_steps (fun os s i (_ : True) => hstep os s i) hs is fun _ _ => trivial

/-- **Bisimulation rule.**  Related states that answer alike and stay related give
the same outputs in every run. -/
theorem outputs_eq_of_bisim {R : S → S → Prop}
    (hstep : ∀ s s' i, R s s' → R (f s i).1 (f s' i).1 ∧ (f s i).2 = (f s' i).2) {s' : S}
    (hs : R s s') (is : List I) : outputs f s is = outputs f s' is := by
  induction is generalizing s s' with
  | nil => rfl
  | cons i is ih =>
    obtain ⟨hnext, houtput⟩ := hstep s s' i hs
    rw [outputs_cons, outputs_cons, houtput, ih hnext]

/-- **Prefix rule.**  If what holds so far survives an input exactly when the
input is good, it holds at every point of a run exactly when every input is
good where it comes. -/
theorem forall_prefix_iff {P : List I → Prop} {good : List I → I → Prop} (hnil : P [])
    (hstep : ∀ xs i, P xs → (P (xs ++ [i]) ↔ good xs i)) (is : List I) :
    (∀ xs ys, is = xs ++ ys → P xs) ↔ ∀ xs i ys, is = xs ++ i :: ys → good xs i := by
  constructor
  · intro h xs i ys hsplit
    have hbefore : P xs := h xs (i :: ys) hsplit
    have hafter : P (xs ++ [i]) := h (xs ++ [i]) ys (by simp [hsplit])
    exact (hstep xs i hbefore).mp hafter
  · intro h xs
    induction xs using List.reverseRecOn with
    | nil =>
      intro _ _
      exact hnil
    | append_singleton xs i ih =>
      intro ys hsplit
      have hsplit : is = xs ++ i :: ys := by simp [hsplit]
      exact (hstep xs i (ih (i :: ys) hsplit)).mpr (h xs i ys hsplit)

end Machine
