import Gyrfalcon.Core
import Gyrfalcon.Lib.Numeral
import Gyrfalcon.Lib.TextLines

/-!
# Sweep intervals (`treasury/src/sweep.rs`)

The configured interval (`"1h"`, `"30m"`) as a number of slots.  The text is cut
one byte before its end, and of the two products only the last saturates.
`parsesExactly_iff` says for which texts the parser returns, and returns the
right number.
-/

namespace Gyrfalcon

open TextLines

inductive SweepIntervalError where
  | empty
  | malformed (interval : List Char)
  | unknownUnit (unit : List Char)
  deriving DecidableEq, Repr

/-! ## The parser -/

/-- `*` at `u64`.  A build with overflow checks panics, `none`; one without wraps. -/
def mulU64 (overflowChecks : Bool) (a b : Nat) : Option Nat :=
  if a * b ≤ u64Max then some (a * b)
  else if overflowChecks then none
  else some (a * b % 2 ^ 64)

def saturatingMulU64 (a b : Nat) : Nat := min (a * b) u64Max

/-- The match on the unit. -/
def intervalSeconds (overflowChecks : Bool) (value : Nat) :
    List Char → Option (Except SweepIntervalError Nat)
  | ['s'] => some (.ok value)
  | ['m'] => (mulU64 overflowChecks value 60).map .ok
  | ['h'] => (mulU64 overflowChecks value 3600).map .ok
  | ['d'] => (mulU64 overflowChecks value 86400).map .ok
  | other => some (.error (.unknownUnit other))

/-- `none` is a panic: of `split_at` off a character boundary, or of a product. -/
def parseSweepIntervalSlots (overflowChecks : Bool) (interval : List Char) (avgSlotMs : Nat) :
    Option (Except SweepIntervalError Nat) :=
  if interval = [] then some (.error .empty)
  else do
    let (numStr, unit) ← splitAt interval ((utf8 interval).length - 1)
    match Numeral.parseUnsigned u64Max numStr with
    | none => some (.error (.malformed interval))
    | some value =>
      let seconds ← intervalSeconds overflowChecks value unit
      some (seconds.map fun seconds => saturatingMulU64 seconds 1000 / max avgSlotMs 1)

/-! ## What an interval means -/

def unitSeconds : Char → Option Nat
  | 's' => some 1
  | 'm' => some 60
  | 'h' => some 3600
  | 'd' => some 86400
  | _ => none

/-- The text is a `u64` numeral and a unit. -/
def Denotes (interval : List Char) (value unit : Nat) : Prop :=
  ∃ numeral c, interval = numeral ++ [c] ∧ Numeral.IsNumeral u64Max numeral value ∧
    unitSeconds c = some unit

/-- The parser returns; it returns `n` for the intervals of `n` slots, and an
error for every other text. -/
def ParsesExactly (overflowChecks : Bool) (interval : List Char) (avgSlotMs : Nat) : Prop :=
  ∃ result, parseSweepIntervalSlots overflowChecks interval avgSlotMs = some result ∧
    ∀ n, result = .ok n ↔ ∃ value unit, Denotes interval value unit ∧
      n = min (value * unit * 1000) u64Max / max avgSlotMs 1

/-- The last character of the text is a single byte. -/
def EndsInAscii (interval : List Char) : Prop :=
  ∀ c, interval.getLast? = some c → c.utf8Size = 1

/-- The seconds fit in 64 bits; or, without overflow checks, what is left of them
after wrapping still saturates to the same last slot. -/
def SecondsFit (overflowChecks : Bool) (seconds avgSlotMs : Nat) : Prop :=
  seconds ≤ u64Max ∨ overflowChecks = false ∧
    max avgSlotMs 1 * (u64Max / max avgSlotMs 1) ≤ seconds % 2 ^ 64 * 1000

/-! ## One text -/

section OneText

variable (overflowChecks : Bool) {numeral : List Char} {c : Char} {value unit : Nat}
  (avgSlotMs : Nat)

theorem not_denotes_nil : ¬ Denotes [] value unit := by
  rintro ⟨numeral, c, hnil, -⟩
  simp at hnil

theorem denotes_concat_iff :
    Denotes (numeral ++ [c]) value unit ↔
      Numeral.parseUnsigned u64Max numeral = some value ∧ unitSeconds c = some unit := by
  rw [Numeral.parseUnsigned_eq_some_iff]
  constructor
  · rintro ⟨numeral', c', heq, hnumeral, hunit⟩
    obtain ⟨rfl, hc⟩ := List.append_inj' heq rfl
    cases hc
    exact ⟨hnumeral, hunit⟩
  · rintro ⟨hnumeral, hunit⟩
    exact ⟨numeral, c, rfl, hnumeral, hunit⟩

/-- A text means one interval at most. -/
theorem Denotes.unique {interval : List Char} {value' unit' : Nat}
    (h : Denotes interval value unit) (h' : Denotes interval value' unit') :
    value' = value ∧ unit' = unit := by
  obtain ⟨numeral, c, rfl, hnumeral, hunit⟩ := h
  obtain ⟨hparse', hunit'⟩ := denotes_concat_iff.mp h'
  rw [(Numeral.parseUnsigned_eq_some_iff _ _ _).mpr hnumeral] at hparse'
  rw [hunit] at hunit'
  exact ⟨(Option.some.inj hparse').symm, (Option.some.inj hunit').symm⟩

/-- Seconds are a plain value too: a product with one cannot overflow. -/
theorem intervalSeconds_eq (hvalue : value ≤ u64Max) :
    intervalSeconds overflowChecks value [c] =
      match unitSeconds c with
      | none => some (.error (.unknownUnit [c]))
      | some unit => (mulU64 overflowChecks value unit).map .ok := by
  have hone : mulU64 overflowChecks value 1 = some value := by simp [mulU64, hvalue]
  fun_cases unitSeconds c with
  | case1 => simp [intervalSeconds, hone]
  | case2 => rfl
  | case3 => rfl
  | case4 => rfl
  | case5 c hs hm hh hd => simp_all [intervalSeconds]

theorem parse_of_multibyte (h : c.utf8Size ≠ 1) :
    parseSweepIntervalSlots overflowChecks (numeral ++ [c]) avgSlotMs = none := by
  rw [parseSweepIntervalSlots, if_neg (by simp), splitAt_concat, if_neg h]
  rfl

theorem parse_of_malformed (h : c.utf8Size = 1)
    (hnumeral : Numeral.parseUnsigned u64Max numeral = none) :
    parseSweepIntervalSlots overflowChecks (numeral ++ [c]) avgSlotMs =
      some (.error (.malformed (numeral ++ [c]))) := by
  rw [parseSweepIntervalSlots, if_neg (by simp), splitAt_concat, if_pos h]
  simp [hnumeral]

theorem parse_of_numeral (h : c.utf8Size = 1)
    (hnumeral : Numeral.parseUnsigned u64Max numeral = some value) :
    parseSweepIntervalSlots overflowChecks (numeral ++ [c]) avgSlotMs =
      match unitSeconds c with
      | none => some (.error (.unknownUnit [c]))
      | some unit => (mulU64 overflowChecks value unit).map fun seconds =>
          .ok (saturatingMulU64 seconds 1000 / max avgSlotMs 1) := by
  obtain ⟨digits, -, hdigits⟩ := (Numeral.parseUnsigned_eq_some_iff _ _ _).mp hnumeral
  rw [parseSweepIntervalSlots, if_neg (by simp), splitAt_concat, if_pos h]
  simp only [bind, Option.bind, hnumeral, intervalSeconds_eq overflowChecks hdigits.le_bound]
  cases hunit : unitSeconds c with
  | none => rfl
  | some unit =>
    cases hproduct : mulU64 overflowChecks value unit with
    | none => simp [hproduct]
    | some seconds => simp [hproduct, Except.map]

theorem parse_of_denotes (h : c.utf8Size = 1) (hdenotes : Denotes (numeral ++ [c]) value unit) :
    parseSweepIntervalSlots overflowChecks (numeral ++ [c]) avgSlotMs =
      (mulU64 overflowChecks value unit).map fun seconds =>
        .ok (saturatingMulU64 seconds 1000 / max avgSlotMs 1) := by
  obtain ⟨hnumeral, hunit⟩ := denotes_concat_iff.mp hdenotes
  rw [parse_of_numeral overflowChecks avgSlotMs h hnumeral, hunit]

/-- A text that means nothing is refused: its number or its unit is wrong. -/
theorem parse_of_not_denotes (h : c.utf8Size = 1)
    (hno : ∀ value unit, ¬ Denotes (numeral ++ [c]) value unit) :
    ∃ e, parseSweepIntervalSlots overflowChecks (numeral ++ [c]) avgSlotMs =
      some (.error e) := by
  cases hnumeral : Numeral.parseUnsigned u64Max numeral with
  | none => exact ⟨_, parse_of_malformed overflowChecks avgSlotMs h hnumeral⟩
  | some value =>
    have hparse := parse_of_numeral overflowChecks avgSlotMs h hnumeral
    cases hunit : unitSeconds c with
    | none =>
      rw [hunit] at hparse
      exact ⟨_, hparse⟩
    | some unit => exact absurd (denotes_concat_iff.mpr ⟨hnumeral, hunit⟩) (hno value unit)

end OneText

/-! ## When it parses -/

theorem min_div_eq_iff {a : Nat} (ha : 0 < a) (x bound : Nat) :
    min x bound / a = bound / a ↔ a * (bound / a) ≤ x := by
  have hle : min x bound / a ≤ bound / a := Nat.div_le_div_right (min_le_right x bound)
  have hbound : bound / a * a ≤ bound := Nat.div_mul_le_self bound a
  rw [← hle.ge_iff_eq, Nat.le_div_iff_mul_le ha, Nat.mul_comm a, le_min_iff]
  exact and_iff_left hbound

/-- The product that does not saturate gives the right number of slots exactly
when the seconds fit. -/
theorem mulU64_slots_iff (overflowChecks : Bool) (value unit avgSlotMs : Nat) :
    (∃ seconds, mulU64 overflowChecks value unit = some seconds ∧
        saturatingMulU64 seconds 1000 / max avgSlotMs 1 =
          min (value * unit * 1000) u64Max / max avgSlotMs 1) ↔
      SecondsFit overflowChecks (value * unit) avgSlotMs := by
  unfold SecondsFit
  by_cases hfits : value * unit ≤ u64Max
  · simp [mulU64, hfits, saturatingMulU64]
  · have hlarge : min (value * unit * 1000) u64Max = u64Max := by omega
    rw [or_iff_right hfits, hlarge]
    cases overflowChecks with
    | true => simp [mulU64, hfits]
    | false =>
      simp [mulU64, hfits, saturatingMulU64, min_div_eq_iff (show 0 < max avgSlotMs 1 by omega)]

section Verdict

variable {overflowChecks : Bool} {interval : List Char} {avgSlotMs : Nat}

/-- An error is right for a text that means nothing. -/
theorem parsesExactly_of_error {e : SweepIntervalError}
    (h : parseSweepIntervalSlots overflowChecks interval avgSlotMs = some (.error e))
    (hmeans : ∀ value unit, ¬ Denotes interval value unit) :
    ParsesExactly overflowChecks interval avgSlotMs := by
  refine ⟨.error e, h, fun n => ⟨(nomatch ·), ?_⟩⟩
  rintro ⟨value, unit, hdenotes, -⟩
  exact absurd hdenotes (hmeans value unit)

/-- A text that means `value` units is parsed if its seconds fit. -/
theorem parsesExactly_iff_of_denotes {value unit : Nat} (hdenotes : Denotes interval value unit)
    (hparse : parseSweepIntervalSlots overflowChecks interval avgSlotMs =
      (mulU64 overflowChecks value unit).map fun seconds =>
        .ok (saturatingMulU64 seconds 1000 / max avgSlotMs 1)) :
    ParsesExactly overflowChecks interval avgSlotMs ↔
      SecondsFit overflowChecks (value * unit) avgSlotMs := by
  rw [← mulU64_slots_iff, ParsesExactly, hparse]
  constructor
  · rintro ⟨result, hresult, hexact⟩
    obtain ⟨seconds, hseconds, rfl⟩ := Option.map_eq_some_iff.mp hresult
    obtain ⟨value', unit', hdenotes', hslots⟩ := (hexact _).mp rfl
    obtain ⟨rfl, rfl⟩ := hdenotes.unique hdenotes'
    exact ⟨seconds, hseconds, hslots⟩
  · rintro ⟨seconds, hseconds, hslots⟩
    refine ⟨_, Option.map_eq_some_iff.mpr ⟨seconds, hseconds, rfl⟩, fun n => ?_⟩
    rw [Except.ok.injEq, hslots]
    constructor
    · rintro rfl
      exact ⟨value, unit, hdenotes, rfl⟩
    · rintro ⟨value', unit', hdenotes', rfl⟩
      obtain ⟨rfl, rfl⟩ := hdenotes.unique hdenotes'
      rfl

end Verdict

/-- **When an interval parses totally and exactly.**  Exactly when the text does
not end in a multi-byte character and, if it is a numeral and a unit, its
seconds fit. -/
theorem parsesExactly_iff (overflowChecks : Bool) (interval : List Char) (avgSlotMs : Nat) :
    ParsesExactly overflowChecks interval avgSlotMs ↔
      EndsInAscii interval ∧ ∀ value unit, Denotes interval value unit →
        SecondsFit overflowChecks (value * unit) avgSlotMs := by
  rcases List.eq_nil_or_concat interval with rfl | ⟨numeral, c, rfl⟩
  · refine iff_of_true (parsesExactly_of_error rfl fun _ _ => not_denotes_nil) ⟨?_, ?_⟩
    · simp [EndsInAscii]
    · exact fun _ _ h => absurd h not_denotes_nil
  · rw [List.concat_eq_append]
    have hends : EndsInAscii (numeral ++ [c]) ↔ c.utf8Size = 1 := by
      simp [EndsInAscii]
    rw [hends]
    by_cases hone : c.utf8Size = 1
    · rw [and_iff_right hone]
      by_cases hmeans : ∃ value unit, Denotes (numeral ++ [c]) value unit
      · obtain ⟨value, unit, hdenotes⟩ := hmeans
        rw [parsesExactly_iff_of_denotes hdenotes (parse_of_denotes _ _ hone hdenotes)]
        constructor
        · intro hfits value' unit' hdenotes'
          obtain ⟨rfl, rfl⟩ := hdenotes.unique hdenotes'
          exact hfits
        · exact fun h => h value unit hdenotes
      · simp only [not_exists] at hmeans
        obtain ⟨e, hparse⟩ := parse_of_not_denotes overflowChecks avgSlotMs hone hmeans
        exact iff_of_true (parsesExactly_of_error hparse hmeans)
          fun value unit hdenotes => absurd hdenotes (hmeans value unit)
    · refine iff_of_false ?_ fun h => hone h.1
      rintro ⟨result, hresult, -⟩
      rw [parse_of_multibyte overflowChecks avgSlotMs hone] at hresult
      cases hresult

/-- `"5µ"` panics in `split_at`; 307445734561825861 minutes wrap to 44 seconds, or
panic in a build with overflow checks. -/
theorem sweep_interval_panics_or_wraps :
    parseSweepIntervalSlots false "5µ".toList 400 = none ∧
      ¬ ParsesExactly false "5µ".toList 400 ∧
      parseSweepIntervalSlots false "307445734561825861m".toList 400 = some (.ok 110) ∧
      parseSweepIntervalSlots true "307445734561825861m".toList 400 = none ∧
      ¬ ParsesExactly false "307445734561825861m".toList 400 := by
  refine ⟨by decide +kernel, fun h => ?_, by decide +kernel, by decide +kernel, fun h => ?_⟩
  · obtain ⟨result, hresult, -⟩ := h
    rw [show parseSweepIntervalSlots false "5µ".toList 400 = none by decide +kernel] at hresult
    cases hresult
  · obtain ⟨result, hresult, hexact⟩ := h
    rw [show parseSweepIntervalSlots false "307445734561825861m".toList 400 = some (.ok 110)
      by decide +kernel] at hresult
    obtain rfl := Option.some.inj hresult
    obtain ⟨value, unit, hdenotes, hslots⟩ := (hexact 110).mp rfl
    have hconcat : "307445734561825861m".toList = "307445734561825861".toList ++ ['m'] := by
      decide
    rw [hconcat, denotes_concat_iff] at hdenotes
    have hvalue : Numeral.parseUnsigned u64Max "307445734561825861".toList =
        some 307445734561825861 := by decide +kernel
    rw [hvalue] at hdenotes
    cases hdenotes.1
    cases hdenotes.2
    revert hslots
    decide +kernel

end Gyrfalcon
