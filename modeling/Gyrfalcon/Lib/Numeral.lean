import Mathlib.Data.List.Basic

/-!
# Unsigned decimal numerals

`IsNumeral bound s n` is the grammar: an optional plus sign, one or more decimal
digits, leading zeros allowed, with a value `n` of at most `bound`.
`parseUnsigned` reads it digit by digit and stops as soon as the value passes
the bound; `parseUnsigned_eq_some_iff` says that it reads exactly that.
-/

namespace Numeral

/-- The digits of a numeral, `acc` being the value of those before. -/
def parseDigits (bound : Nat) : Nat → List Char → Option Nat
  | acc, [] => some acc
  | acc, c :: cs =>
    let value := 10 * acc + (c.toNat - '0'.toNat)
    if c.isDigit ∧ value ≤ bound then parseDigits bound value cs else none

def stripPlus (s : List Char) : List Char :=
  if s.head? = some '+' then s.tail else s

/-- A lone plus sign is no numeral, and neither is the empty text. -/
def parseUnsigned (bound : Nat) (s : List Char) : Option Nat :=
  if stripPlus s = [] then none else parseDigits bound 0 (stripPlus s)

/-- Digits of value `n`, within the bound. -/
structure IsDigits (bound : Nat) (digits : List Char) (n : Nat) : Prop where
  ne_nil : digits ≠ []
  isDigit : ∀ c ∈ digits, c.isDigit = true
  value : Nat.ofDigitChars 10 digits 0 = n
  le_bound : n ≤ bound

def IsNumeral (bound : Nat) (s : List Char) (n : Nat) : Prop :=
  ∃ digits, (s = digits ∨ s = '+' :: digits) ∧ IsDigits bound digits n

theorem le_ofDigitChars (digits : List Char) (acc : Nat) :
    acc ≤ Nat.ofDigitChars 10 digits acc := by
  rw [Nat.ofDigitChars_eq_ofDigitChars_zero]
  have hpow : acc ≤ 10 ^ digits.length * acc :=
    Nat.le_mul_of_pos_left acc (Nat.pow_pos (by decide))
  exact Nat.le_add_right_of_le hpow

theorem parseDigits_eq_some_iff {bound acc : Nat} (hacc : acc ≤ bound) (digits : List Char)
    (n : Nat) :
    parseDigits bound acc digits = some n ↔
      (∀ c ∈ digits, c.isDigit = true) ∧ Nat.ofDigitChars 10 digits acc = n ∧ n ≤ bound := by
  induction digits generalizing acc with
  | nil =>
    rw [parseDigits, Nat.ofDigitChars_nil, Option.some.injEq]
    constructor
    · rintro rfl
      exact ⟨by simp, rfl, hacc⟩
    · rintro ⟨-, h, -⟩
      exact h
  | cons c cs ih =>
    rw [parseDigits, Nat.ofDigitChars_cons, List.forall_mem_cons]
    by_cases hstep : c.isDigit = true ∧ 10 * acc + (c.toNat - '0'.toNat) ≤ bound
    · rw [if_pos hstep, ih hstep.2, and_iff_right hstep.1]
    · rw [if_neg hstep]
      refine ⟨(nomatch ·), ?_⟩
      rintro ⟨⟨hc, -⟩, rfl, hle⟩
      exact absurd ⟨hc, Nat.le_trans (le_ofDigitChars cs _) hle⟩ hstep

/-- What a numeral is, past its sign. -/
theorem isNumeral_iff (bound : Nat) (s : List Char) (n : Nat) :
    IsNumeral bound s n ↔ IsDigits bound (stripPlus s) n := by
  by_cases hplus : s.head? = some '+'
  · obtain ⟨digits, rfl⟩ := List.head?_eq_some_iff.mp hplus
    rw [stripPlus, if_pos hplus, List.tail_cons]
    constructor
    · rintro ⟨_, rfl | hs, h⟩
      · exact absurd (h.isDigit '+' List.mem_cons_self) (by decide)
      · cases hs
        exact h
    · intro h
      exact ⟨digits, Or.inr rfl, h⟩
  · rw [stripPlus, if_neg hplus]
    constructor
    · rintro ⟨digits, rfl | rfl, h⟩
      · exact h
      · exact absurd rfl hplus
    · intro h
      exact ⟨s, Or.inl rfl, h⟩

/-- **Numerals.**  Exactly the grammar is read, with its value. -/
theorem parseUnsigned_eq_some_iff (bound : Nat) (s : List Char) (n : Nat) :
    parseUnsigned bound s = some n ↔ IsNumeral bound s n := by
  rw [isNumeral_iff, parseUnsigned]
  by_cases hnil : stripPlus s = []
  · rw [if_pos hnil]
    exact ⟨(nomatch ·), fun h => absurd hnil h.ne_nil⟩
  · rw [if_neg hnil, parseDigits_eq_some_iff (Nat.zero_le bound)]
    exact ⟨fun ⟨hdigit, hvalue, hle⟩ => ⟨hnil, hdigit, hvalue, hle⟩,
      fun h => ⟨h.isDigit, h.value, h.le_bound⟩⟩

/-- The characters of a number in base `b`. -/
theorem exists_digitChar_of_mem_toDigits {b n : Nat} {c : Char} (hb : 1 < b)
    (h : c ∈ Nat.toDigits b n) : ∃ d < b, c = d.digitChar := by
  induction n using Nat.strongRecOn with
  | ind n ih =>
    rw [Nat.toDigits_eq_if hb] at h
    split at h
    · next hlt => exact ⟨n, hlt, List.mem_singleton.mp h⟩
    · next hge =>
      rcases List.mem_append.mp h with h | h
      · exact ih (n / b) (Nat.div_lt_self (by omega) hb) h
      · exact ⟨n % b, Nat.mod_lt n (by omega), List.mem_singleton.mp h⟩

end Numeral
