import Gyrfalcon.Lib.FixedPoint

/-!
# Methods that can fail halfway

A method changes a state and returns a value or an error; what it wrote before
the error stays written.  The rules below say what a `do` block of such methods
returns and leaves behind: it went through, or one of its steps was the last.
-/

/-- A method on a state `S`. -/
abbrev Fallible (E S α : Type) := ExceptT E (StateM S) α

namespace Fallible

variable {E S T α β : Type}

/-- What a method returns and the state it leaves. -/
def exec (x : Fallible E S α) (s : S) : Except E α × S := (x.run : StateM S (Except E α)) s

/-- A method on a part of the state. -/
def zoom (part : S → T) (put : S → T → S) (x : Fallible E T α) : Fallible E S α :=
  ExceptT.mk fun s => ((x.exec (part s)).1, put s (x.exec (part s)).2)

/-- A check at the start of the rest. -/
def refuseIf (c : Prop) [Decidable c] (e : E) : Except E Unit := if c then .error e else .ok ()

@[simp] theorem refuseIf_eq_ok_iff {c : Prop} [Decidable c] {e : E} {u : Unit} :
    refuseIf c e = .ok u ↔ ¬ c := by
  unfold refuseIf
  split <;> simp_all

/-- A method that is undone when it fails. -/
def commit (x : Fallible E S α) (s : S) : Except E S :=
  match x.exec s with
  | (.ok _, s') => .ok s'
  | (.error e, _) => .error e

@[simp] theorem commit_eq_ok_iff {x : Fallible E S α} {s s' : S} :
    x.commit s = .ok s' ↔ ∃ a, x.exec s = (.ok a, s') := by
  unfold commit
  rcases x.exec s with ⟨_ | a, t⟩
  · simp
  · simp

section Rules

variable {x : Fallible E S α} {f : α → Fallible E S β} {s s' : S} {a : α} {b : β} {e : E}

@[simp] theorem exec_pure : (pure a : Fallible E S α).exec s = (.ok a, s) := rfl

@[simp] theorem exec_throw : (throw e : Fallible E S α).exec s = (.error e, s) := rfl

@[simp] theorem exec_get : (get : Fallible E S S).exec s = (.ok s, s) := rfl

@[simp] theorem exec_set : (set s' : Fallible E S PUnit).exec s = (.ok ⟨⟩, s') := rfl

@[simp] theorem exec_modify {g : S → S} :
    (modify g : Fallible E S PUnit).exec s = (.ok ⟨⟩, g s) := rfl

@[simp] theorem exec_lift (r : Except E α) : (liftM r : Fallible E S α).exec s = (r, s) := rfl

@[simp] theorem exec_zoom_eq_iff {part : S → T} {put : S → T → S} {x : Fallible E T α}
    {r : Except E α} :
    (zoom part put x).exec s = (r, s') ↔ ∃ t, x.exec (part s) = (r, t) ∧ put s t = s' := by
  change ((x.exec (part s)).1, put s (x.exec (part s)).2) = (r, s') ↔ _
  rcases x.exec (part s) with ⟨r', t⟩
  simp [Prod.mk.injEq, and_assoc]

theorem exec_bind : (x >>= f).exec s =
    match x.exec s with
    | (.ok a, s') => (f a).exec s'
    | (.error e, s') => (.error e, s') := by
  change (ExceptT.bindCont (fun a => f a) (x.exec s).1 : StateM S (Except E β)) (x.exec s).2 = _
  rcases x.exec s with ⟨_ | _, _⟩ <;> rfl

/-- **A block goes through** when all its steps do. -/
theorem exec_bind_eq_ok_iff : (x >>= f).exec s = (.ok b, s') ↔
    ∃ a t, x.exec s = (.ok a, t) ∧ (f a).exec t = (.ok b, s') := by
  rw [exec_bind]
  rcases x.exec s with ⟨_ | a, t⟩
  · simp
  · simp

/-- **A block fails** at its first step, or later with that step's writes. -/
theorem exec_bind_eq_error_iff : (x >>= f).exec s = (.error e, s') ↔
    x.exec s = (.error e, s') ∨
      ∃ a t, x.exec s = (.ok a, t) ∧ (f a).exec t = (.error e, s') := by
  rw [exec_bind]
  rcases x.exec s with ⟨_ | a, t⟩
  · simp
  · simp

/-! A step that only reads, writes or computes leaves no choice of a state. -/

@[simp] theorem exec_get_bind {f : S → Fallible E S β} : (get >>= f).exec s = (f s).exec s := by
  rw [exec_bind, exec_get]

@[simp] theorem exec_modify_bind {g : S → S} {f : PUnit → Fallible E S β} :
    (modify g >>= f).exec s = (f ⟨⟩).exec (g s) := by
  rw [exec_bind, exec_modify]

@[simp] theorem exec_lift_bind_eq_ok_iff {r : Except E α} :
    ((liftM r : Fallible E S α) >>= f).exec s = (.ok b, s') ↔
      ∃ a, r = .ok a ∧ (f a).exec s = (.ok b, s') := by
  rw [exec_bind_eq_ok_iff]
  simp

@[simp] theorem exec_lift_bind_eq_error_iff {r : Except E α} :
    ((liftM r : Fallible E S α) >>= f).exec s = (.error e, s') ↔
      (r = .error e ∧ s = s') ∨ ∃ a, r = .ok a ∧ (f a).exec s = (.error e, s') := by
  rw [exec_bind_eq_error_iff]
  simp

@[simp] theorem exec_zoom_bind_eq_ok_iff {part : S → T} {put : S → T → S} {x : Fallible E T α} :
    (zoom part put x >>= f).exec s = (.ok b, s') ↔
      ∃ a t, x.exec (part s) = (.ok a, t) ∧ (f a).exec (put s t) = (.ok b, s') := by
  rw [exec_bind_eq_ok_iff]
  constructor
  · rintro ⟨a, _, hx, hf⟩
    obtain ⟨t, ht, rfl⟩ := exec_zoom_eq_iff.mp hx
    exact ⟨a, t, ht, hf⟩
  · rintro ⟨a, t, ht, hf⟩
    exact ⟨a, _, exec_zoom_eq_iff.mpr ⟨t, ht, rfl⟩, hf⟩

@[simp] theorem exec_zoom_bind_eq_error_iff {part : S → T} {put : S → T → S}
    {x : Fallible E T α} :
    (zoom part put x >>= f).exec s = (.error e, s') ↔
      (∃ t, x.exec (part s) = (.error e, t) ∧ put s t = s') ∨
        ∃ a t, x.exec (part s) = (.ok a, t) ∧ (f a).exec (put s t) = (.error e, s') := by
  rw [exec_bind_eq_error_iff, exec_zoom_eq_iff]
  refine or_congr_right ?_
  constructor
  · rintro ⟨a, _, hx, hf⟩
    obtain ⟨t, ht, rfl⟩ := exec_zoom_eq_iff.mp hx
    exact ⟨a, t, ht, hf⟩
  · rintro ⟨a, t, ht, hf⟩
    exact ⟨a, _, exec_zoom_eq_iff.mpr ⟨t, ht, rfl⟩, hf⟩

end Rules

/-! ## What a method leaves alone -/

/-- `x` does not change `p`, whether it fails or not. -/
def Keeps {U : Type} (p : S → U) (x : Fallible E S α) : Prop := ∀ s, p (x.exec s).2 = p s

namespace Keeps

variable {U : Type} {p : S → U}

theorem pure (a : α) : Keeps p (Pure.pure a : Fallible E S α) := fun _ => rfl

theorem get : Keeps p (MonadState.get : Fallible E S S) := fun _ => rfl

theorem lift (r : Except E α) : Keeps p (liftM r : Fallible E S α) := fun _ => rfl

theorem modify {g : S → S} (h : ∀ s, p (g s) = p s) :
    Keeps p (modify g : Fallible E S PUnit) := h

theorem zoom {V : Type} {q : T → V} {part : S → T} {put : S → T → S} {x : Fallible E T α}
    (h : ∀ s t, q t = q (part s) → p (put s t) = p s) (hx : Keeps q x) :
    Keeps p (Fallible.zoom part put x) := fun s => h s _ (hx (part s))

theorem bind {x : Fallible E S α} {f : α → Fallible E S β} (hx : Keeps p x)
    (hf : ∀ a, Keeps p (f a)) : Keeps p (x >>= f) := by
  intro s
  have hxs := hx s
  rw [exec_bind]
  rcases hex : x.exec s with ⟨_ | a, t⟩
  · rw [hex] at hxs
    exact hxs
  · rw [hex] at hxs
    exact (hf a t).trans hxs

end Keeps

end Fallible
