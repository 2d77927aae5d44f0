import Mathlib.Algebra.Order.Ring.Nat
import Mathlib.Logic.Function.Iterate
import Mathlib.Tactic.Ring

/-!
# Bounded fixed-point numbers

A number scaled by a unit `w` is a natural number; products and quotients are
rounded down, and a result that leaves its width is an error.  The first part
is what checked operations return, the second how far rounding can be off, the
third square-and-multiply with such a product.
-/

namespace FixedPoint

variable {E α β : Type}

/-! ## Checked results -/

/-- `n`, if it is below `bound`. -/
def checked (bound : Nat) (e : E) (n : Nat) : Except E Nat :=
  if n < bound then .ok n else .error e

@[simp] theorem checked_eq_ok_iff {bound : Nat} {e : E} {n m : Nat} :
    checked bound e n = .ok m ↔ n < bound ∧ n = m := by
  unfold checked
  split <;> simp_all

/-- A block succeeds when its first step does and the rest does on its value. -/
@[simp] theorem bind_eq_ok_iff {x : Except E α} {f : α → Except E β} {b : β} :
    (x >>= f) = .ok b ↔ ∃ a, x = .ok a ∧ f a = .ok b := by
  cases x with
  | error e => simp [bind, Except.bind]
  | ok a => simp [bind, Except.bind]

@[simp] theorem map_eq_ok_iff {x : Except E α} {f : α → β} {b : β} :
    (f <$> x) = .ok b ↔ ∃ a, x = .ok a ∧ f a = b := by
  cases x with
  | error e => simp [Functor.map, Except.map]
  | ok a => simp [Functor.map, Except.map]

@[simp] theorem pure_eq_ok_iff {a b : α} : (pure a : Except E α) = .ok b ↔ a = b := by
  simp [pure, Except.pure]

/-! ## Rounding down -/

/-- One unit and a bit times one unit and a bit is at least the unit and both bits. -/
theorem le_mul_div {w x y a b : Nat} (hw : 0 < w) (ha : w + x ≤ a) (hb : w + y ≤ b) :
    w + x + y ≤ a * b / w := by
  rw [Nat.le_div_iff_mul_le hw]
  calc (w + x + y) * w ≤ (w + x + y) * w + x * y := Nat.le_add_right _ _
    _ = (w + x) * (w + y) := by ring
    _ ≤ a * b := Nat.mul_le_mul ha hb

/-- Multiplying by at most one unit does not grow a number. -/
theorem mul_div_le {w a b : Nat} (hb : b ≤ w) : a * b / w ≤ a := by
  rcases Nat.eq_zero_or_pos w with rfl | hw
  · simp
  · exact Nat.div_le_of_le_mul (by rw [mul_comm w a]; exact Nat.mul_le_mul_left a hb)

/-- Multiplying by at least one unit does not shrink a number. -/
theorem le_mul_div_self {w a b : Nat} (hw : 0 < w) (hb : w ≤ b) : a ≤ a * b / w :=
  (Nat.le_div_iff_mul_le hw).mpr (Nat.mul_le_mul_left a hb)

/-- The share `x` of `width`, rounded down, of a rise. -/
def ramp (w x width rise : Nat) : Nat := x * w / width * rise / w

/-- A share is at most one unit. -/
theorem share_le {w x width : Nat} (h : x ≤ width) : x * w / width ≤ w := by
  rcases Nat.eq_zero_or_pos width with rfl | hpos
  · simp
  · exact Nat.div_le_of_le_mul (Nat.mul_le_mul_right w h)

theorem ramp_le (w rise : Nat) {x width : Nat} (h : x ≤ width) : ramp w x width rise ≤ rise := by
  unfold ramp
  rw [mul_comm]
  exact mul_div_le (share_le h)

theorem ramp_mono (w width rise : Nat) {x y : Nat} (h : x ≤ y) :
    ramp w x width rise ≤ ramp w y width rise :=
  Nat.div_le_div_right
    (Nat.mul_le_mul_right rise (Nat.div_le_div_right (Nat.mul_le_mul_right w h)))

/-- A share of a share, both rounded down, is off by at most one unit of the result and
one of the share. -/
theorem lt_share_of_share {w v total x s : Nat} (hw : 0 < w) (htotal : 0 < total)
    (hs : x * (v * w / total) / w = s) : v * w * x < ((s + 1) * w + x) * total := by
  have hshare : v * w < (v * w / total + 1) * total := by
    rw [mul_comm (_ + 1)]
    exact Nat.lt_mul_div_succ _ htotal
  have hpart : x * (v * w / total) < (s + 1) * w := by
    rw [← hs, mul_comm (_ + 1)]
    exact Nat.lt_mul_div_succ _ hw
  calc v * w * x ≤ (v * w / total + 1) * total * x := Nat.mul_le_mul_right _ hshare.le
    _ = (x * (v * w / total) + x) * total := by ring
    _ < ((s + 1) * w + x) * total := by
      exact Nat.mul_lt_mul_of_pos_right (by omega) htotal

/-! ## Square and multiply -/

/-- A number times itself. -/
def square (w b : Nat) : Nat := b * b / w

/-- `base` is squared once for each binary digit of `exp`, and the powers that
`exp` is made of, but for its last digit, are multiplied onto `ret`. -/
def powLoop {R : Type} (mul : R → R → Except E R) (base ret : R) (exp : Nat) : Except E R :=
  if exp = 0 then .ok ret
  else do
    let base ← mul base base
    let ret ← (if exp / 2 % 2 ≠ 0 then mul ret base else .ok ret)
    powLoop mul base ret (exp / 2)
  termination_by exp
  decreasing_by omega

/-- `mul` multiplies scaled numbers and fails exactly when the product, before it
is divided, reaches `bound`. -/
structure FloorMul {R : Type} (mul : R → R → Except E R) (val : R → Nat) (w bound : Nat) :
    Prop where
  of_ok : ∀ {a b c}, mul a b = .ok c → val a * val b < bound ∧ val c = val a * val b / w
  exists_ok : ∀ {a b}, val a * val b < bound → ∃ c, mul a b = .ok c

section Power

variable {R : Type} {mul : R → R → Except E R} {val : R → Nat} {w bound : Nat}

theorem powLoop_zero (base ret : R) : powLoop mul base ret 0 = .ok ret := by
  rw [powLoop, if_pos rfl]

/-- One turn of the loop. -/
theorem powLoop_eq_ok_iff {base ret r : R} {exp : Nat} (hexp : exp ≠ 0) :
    powLoop mul base ret exp = .ok r ↔ ∃ base' ret', mul base base = .ok base' ∧
      (if exp / 2 % 2 ≠ 0 then mul ret base' else .ok ret) = .ok ret' ∧
        powLoop mul base' ret' (exp / 2) = .ok r := by
  rw [powLoop, if_neg hexp]
  simp only [bind_eq_ok_iff]
  constructor
  · rintro ⟨base', hbase, ret', hret, hloop⟩
    exact ⟨base', ret', hbase, hret, hloop⟩
  · rintro ⟨base', ret', hbase, hret, hloop⟩
    exact ⟨base', hbase, ret', hret, hloop⟩

/-- What the squares ask for, the first apart from the rest. -/
theorem squares_fit_iff {exp base : Nat} (hexp : exp ≠ 0) :
    (∀ k, 2 ^ k ≤ exp → (square w)^[k] base * (square w)^[k] base < bound) ↔
      base * base < bound ∧ ∀ k, 2 ^ k ≤ exp / 2 →
        (square w)^[k] (square w base) * (square w)^[k] (square w base) < bound := by
  constructor
  · intro h
    refine ⟨h 0 (by simp; omega), fun k hk => ?_⟩
    have := h (k + 1) (by rw [pow_succ]; omega)
    rwa [Function.iterate_succ_apply] at this
  · rintro ⟨hzero, hsucc⟩ k hk
    cases k with
    | zero => exact hzero
    | succ k =>
      rw [Function.iterate_succ_apply]
      exact hsucc k (by rw [pow_succ] at hk; omega)

variable (hmul : FloorMul mul val w bound)

include hmul

/-- **Never above the exact power.** -/
theorem powLoop_le {base ret r : R} {exp : Nat} (h : powLoop mul base ret exp = .ok r) :
    val r * w ^ (2 * (exp / 2)) ≤ val ret * val base ^ (2 * (exp / 2)) := by
  induction exp using Nat.strongRecOn generalizing base ret with
  | ind exp ih =>
    by_cases hexp : exp = 0
    · subst hexp
      rw [powLoop_zero] at h
      cases h
      simp
    · obtain ⟨base', ret', hbase, hret, hloop⟩ := (powLoop_eq_ok_iff hexp).mp h
      have hrest := ih (exp / 2) (by omega) hloop
      have hb : val base' * w ≤ val base ^ 2 := by
        rw [(hmul.of_ok hbase).2, pow_two]
        exact Nat.div_mul_le_self _ _
      obtain ⟨k, hk⟩ : ∃ k, 2 * (exp / 2 / 2) = k := ⟨_, rfl⟩
      rw [hk] at hrest
      by_cases hodd : exp / 2 % 2 ≠ 0
      · rw [if_pos hodd] at hret
        have hr : val ret' * w ≤ val ret * val base' := by
          rw [(hmul.of_ok hret).2]
          exact Nat.div_mul_le_self _ _
        have hsplit : 2 * (exp / 2) = k + k + 2 := by omega
        rw [hsplit]
        calc val r * w ^ (k + k + 2) = val r * w ^ k * (w ^ k * w ^ 2) := by ring
          _ ≤ val ret' * val base' ^ k * (w ^ k * w ^ 2) := Nat.mul_le_mul_right _ hrest
          _ = val ret' * w * (w * (val base' * w) ^ k) := by rw [mul_pow]; ring
          _ ≤ val ret * val base' * (w * (val base' * w) ^ k) := Nat.mul_le_mul_right _ hr
          _ = val ret * (val base' * w) ^ (k + 1) := by rw [pow_succ]; ring
          _ ≤ val ret * (val base ^ 2) ^ (k + 1) :=
            Nat.mul_le_mul_left _ (Nat.pow_le_pow_left hb _)
          _ = val ret * val base ^ (k + k + 2) := by rw [← pow_mul]; congr 2; ring
      · rw [if_neg hodd] at hret
        cases hret
        have hsplit : 2 * (exp / 2) = k + k := by omega
        rw [hsplit]
        calc val r * w ^ (k + k) = val r * w ^ k * w ^ k := by ring
          _ ≤ val ret * val base' ^ k * w ^ k := Nat.mul_le_mul_right _ hrest
          _ = val ret * (val base' * w) ^ k := by rw [mul_pow]; ring
          _ ≤ val ret * (val base ^ 2) ^ k := Nat.mul_le_mul_left _ (Nat.pow_le_pow_left hb _)
          _ = val ret * val base ^ (k + k) := by rw [← pow_mul]; congr 2; ring

/-- **At least simple growth.**  A base of one unit and `x` grows a result of one
unit and `y` by `x` for every unit of the exponent. -/
theorem le_powLoop (hw : 0 < w) {base ret r : R} {exp x y : Nat} (hx : w + x ≤ val base)
    (hy : w + y ≤ val ret) (h : powLoop mul base ret exp = .ok r) :
    w + y + 2 * (exp / 2) * x ≤ val r := by
  induction exp using Nat.strongRecOn generalizing base ret x y with
  | ind exp ih =>
    by_cases hexp : exp = 0
    · subst hexp
      rw [powLoop_zero] at h
      cases h
      simpa using hy
    · obtain ⟨base', ret', hbase, hret, hloop⟩ := (powLoop_eq_ok_iff hexp).mp h
      have hbase' : w + 2 * x ≤ val base' := by
        have := le_mul_div hw hx hx
        rw [(hmul.of_ok hbase).2]
        omega
      by_cases hodd : exp / 2 % 2 ≠ 0
      · rw [if_pos hodd] at hret
        have hret' : w + (y + 2 * x) ≤ val ret' := by
          have := le_mul_div hw hy hbase'
          rw [(hmul.of_ok hret).2]
          omega
        have hrest := ih (exp / 2) (by omega) hbase' hret' hloop
        have hsplit : exp / 2 = 2 * (exp / 2 / 2) + 1 := by omega
        calc w + y + 2 * (exp / 2) * x
            = w + y + 2 * (2 * (exp / 2 / 2) + 1) * x := by rw [← hsplit]
          _ = w + (y + 2 * x) + 2 * (exp / 2 / 2) * (2 * x) := by ring
          _ ≤ val r := hrest
      · rw [if_neg hodd] at hret
        cases hret
        have hrest := ih (exp / 2) (by omega) hbase' hy hloop
        have hsplit : exp / 2 = 2 * (exp / 2 / 2) := by omega
        calc w + y + 2 * (exp / 2) * x
            = w + y + 2 * (2 * (exp / 2 / 2)) * x := by rw [← hsplit]
          _ = w + y + 2 * (exp / 2 / 2) * (2 * x) := by ring
          _ ≤ val r := hrest

/-- One turn keeps the result within the square of the base. -/
theorem ret_le_square (hw : 0 < w) {base base' ret ret' : R} {exp : Nat} (hbase : w ≤ val base')
    (hret : val ret ≤ square w (val base)) (hsq : mul base base = .ok base')
    (hret' : (if exp / 2 % 2 ≠ 0 then mul ret base' else .ok ret) = .ok ret') :
    val ret' ≤ square w (val base') := by
  have hval : val base' = square w (val base) := (hmul.of_ok hsq).2
  by_cases hodd : exp / 2 % 2 ≠ 0
  · rw [if_pos hodd] at hret'
    rw [(hmul.of_ok hret').2, hval]
    exact Nat.div_le_div_right (Nat.mul_le_mul_right _ hret)
  · rw [if_neg hodd] at hret'
    cases hret'
    rw [hval]
    exact hret.trans (le_mul_div_self hw (hval ▸ hbase))

/-- **When it succeeds.**  For a base of at least one unit only the squares can
leave the width, and there is one for each binary digit of the exponent, the
one after the last that is used included. -/
theorem exists_powLoop_iff (hw : 0 < w) {base ret : R} {exp : Nat} (hbase : w ≤ val base)
    (hret : val ret ≤ square w (val base)) :
    (∃ r, powLoop mul base ret exp = .ok r) ↔
      ∀ k, 2 ^ k ≤ exp → (square w)^[k] (val base) * (square w)^[k] (val base) < bound := by
  induction exp using Nat.strongRecOn generalizing base ret with
  | ind exp ih =>
    by_cases hexp : exp = 0
    · subst hexp
      refine iff_of_true ⟨ret, powLoop_zero base ret⟩ fun k hk => ?_
      have := Nat.two_pow_pos k
      omega
    · have hgrow : ∀ base', mul base base = .ok base' → w ≤ val base' := by
        intro base' hsq
        rw [(hmul.of_ok hsq).2]
        exact hbase.trans (le_mul_div_self hw hbase)
      rw [squares_fit_iff hexp]
      constructor
      · rintro ⟨r, hr⟩
        obtain ⟨base', ret', hsq, hret', hloop⟩ := (powLoop_eq_ok_iff hexp).mp hr
        have hle := ret_le_square hmul hw (hgrow base' hsq) hret hsq hret'
        have hsucc := (ih (exp / 2) (by omega) (hgrow base' hsq) hle).mp ⟨r, hloop⟩
        rw [(hmul.of_ok hsq).2] at hsucc
        exact ⟨(hmul.of_ok hsq).1, hsucc⟩
      · rintro ⟨hzero, hsucc⟩
        obtain ⟨base', hsq⟩ := hmul.exists_ok hzero
        have hval : val base' = square w (val base) := (hmul.of_ok hsq).2
        obtain ⟨ret', hret'⟩ :
            ∃ ret', (if exp / 2 % 2 ≠ 0 then mul ret base' else .ok ret) = .ok ret' := by
          by_cases hodd : exp / 2 % 2 ≠ 0
          · rw [if_pos hodd]
            refine hmul.exists_ok (Nat.lt_of_le_of_lt ?_ (hsucc 0 (by simp; omega)))
            rw [hval]
            exact Nat.mul_le_mul_right _ hret
          · rw [if_neg hodd]
            exact ⟨ret, rfl⟩
        have hle := ret_le_square hmul hw (hgrow base' hsq) hret hsq hret'
        rw [← hval] at hsucc
        obtain ⟨r, hloop⟩ := (ih (exp / 2) (by omega) (hgrow base' hsq) hle).mpr hsucc
        exact ⟨r, (powLoop_eq_ok_iff hexp).mpr ⟨base', ret', hsq, hret', hloop⟩⟩

end Power

end FixedPoint
