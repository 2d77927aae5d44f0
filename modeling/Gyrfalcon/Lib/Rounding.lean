import Mathlib.Algebra.Order.Floor.Ring
import Mathlib.Data.Int.Log
import Mathlib.Data.Rat.Floor
import Mathlib.Tactic.Linarith
import Mathlib.Tactic.Ring

/-!
# Rounded arithmetic

A floating-point operation is the exact one, rounded to a number of the format.
A binary format has a significand of `precision` digits and a least exponent;
its numbers around `x` are the multiples of a power of two, `quantum x`, and
`round` goes to the nearest one, to the even one of two.  What is used of it:
it is monotone, it keeps the numbers of the format, and above the subnormal
numbers it is within `2 ^ -precision` of its argument, relatively.  The range
has no upper end.
-/

namespace Rounding

/-! ## To the nearest integer -/

/-- The nearest integer, the even one of two. -/
def roundHalfEven (x : ℚ) : ℤ :=
  if x - ⌊x⌋ < 1 / 2 then ⌊x⌋
  else if 1 / 2 < x - ⌊x⌋ then ⌊x⌋ + 1
  else ⌊x⌋ + ⌊x⌋ % 2

variable {x y : ℚ}

theorem floor_le_roundHalfEven (x : ℚ) : ⌊x⌋ ≤ roundHalfEven x := by
  unfold roundHalfEven
  split_ifs <;> omega

theorem roundHalfEven_le_floor_add_one (x : ℚ) : roundHalfEven x ≤ ⌊x⌋ + 1 := by
  unfold roundHalfEven
  split_ifs <;> omega

@[simp] theorem roundHalfEven_intCast (n : ℤ) : roundHalfEven n = n := by
  simp [roundHalfEven]

theorem roundHalfEven_mono (h : x ≤ y) : roundHalfEven x ≤ roundHalfEven y := by
  rcases (Int.floor_mono h).lt_or_eq with hlt | heq
  · calc roundHalfEven x ≤ ⌊x⌋ + 1 := roundHalfEven_le_floor_add_one x
      _ ≤ ⌊y⌋ := hlt
      _ ≤ roundHalfEven y := floor_le_roundHalfEven y
  · unfold roundHalfEven
    rw [heq]
    have hfract : x - ⌊y⌋ ≤ y - ⌊y⌋ := by linarith
    split_ifs with hx hy hy' hx' hy hy' hy hy'
    all_goals first | omega | linarith

theorem abs_roundHalfEven_sub_le (x : ℚ) : |(roundHalfEven x : ℚ) - x| ≤ 1 / 2 := by
  have hlo := Int.floor_le x
  have hhi := Int.lt_floor_add_one x
  have hparity : ((⌊x⌋ % 2 : ℤ) : ℚ) = 0 ∨ ((⌊x⌋ % 2 : ℤ) : ℚ) = 1 := by
    rcases Int.emod_two_eq_zero_or_one ⌊x⌋ with h | h
    · exact Or.inl (by rw [h]; rfl)
    · exact Or.inr (by rw [h]; rfl)
  unfold roundHalfEven
  rw [abs_le]
  split_ifs with hdown hup
  · constructor <;> linarith
  · push_cast
    constructor <;> linarith
  · push_cast
    rcases hparity with h | h
    · rw [h]
      constructor <;> linarith
    · rw [h]
      constructor <;> linarith

theorem roundHalfEven_neg (x : ℚ) : roundHalfEven (-x) = -roundHalfEven x := by
  have hlo := Int.floor_le x
  have hhi := Int.lt_floor_add_one x
  by_cases hint : (⌊x⌋ : ℚ) = x
  · rw [← hint, ← Int.cast_neg, roundHalfEven_intCast, roundHalfEven_intCast]
  · have hpos : (⌊x⌋ : ℚ) < x := lt_of_le_of_ne hlo hint
    have hfloor : ⌊-x⌋ = -⌊x⌋ - 1 := by
      rw [Int.floor_eq_iff]
      push_cast
      constructor <;> linarith
    unfold roundHalfEven
    rw [hfloor]
    push_cast
    split_ifs <;> first | omega | linarith

/-! ## Binary formats -/

/-- `precision` binary digits, the last of them worth at least `2 ^ minExponent`. -/
structure Format where
  precision : Nat
  minExponent : ℤ
  precision_pos : 0 < precision

/-- IEEE 754 double precision. -/
def binary64 : Format := ⟨53, -1074, by decide⟩

namespace Format

variable (format : Format)

/-- The exponent of the last digit of a number. -/
def exponent (x : ℚ) : ℤ := max (Int.log 2 |x| - (format.precision - 1)) format.minExponent

/-- What the last digit of a number is worth. -/
def quantum (x : ℚ) : ℚ := 2 ^ format.exponent x

/-- To the nearest number of the format, ties to even. -/
def round (x : ℚ) : ℚ := roundHalfEven (x / format.quantum x) * format.quantum x

theorem quantum_pos (x : ℚ) : 0 < format.quantum x := zpow_pos two_pos _

@[simp] theorem round_zero : format.round 0 = 0 := by
  have h : roundHalfEven 0 = 0 := by exact_mod_cast roundHalfEven_intCast 0
  simp [round, h]

@[simp] theorem round_neg (x : ℚ) : format.round (-x) = -format.round x := by
  have hquantum : format.quantum (-x) = format.quantum x := by
    rw [quantum, quantum, exponent, exponent, abs_neg]
  rw [round, round, hquantum, neg_div, roundHalfEven_neg]
  push_cast
  ring

theorem abs_round_sub_le (x : ℚ) : |format.round x - x| ≤ format.quantum x / 2 := by
  have hpos := format.quantum_pos x
  have hsplit : format.round x - x =
      (roundHalfEven (x / format.quantum x) - x / format.quantum x) * format.quantum x := by
    rw [round, sub_mul, div_mul_cancel₀ x hpos.ne']
  rw [hsplit, abs_mul, abs_of_pos hpos]
  calc |(roundHalfEven (x / format.quantum x) : ℚ) - x / format.quantum x| * format.quantum x
      ≤ 1 / 2 * format.quantum x :=
        mul_le_mul_of_nonneg_right (abs_roundHalfEven_sub_le _) hpos.le
    _ = format.quantum x / 2 := by ring

/-- **Relative error.**  Of a normal number `precision` digits are right. -/
theorem abs_round_sub_le_of_normal
    (h : (2 : ℚ) ^ (format.minExponent + (format.precision - 1)) ≤ |x|) :
    |format.round x - x| ≤ |x| / 2 ^ format.precision := by
  have hx : 0 < |x| := lt_of_lt_of_le (zpow_pos two_pos _) h
  have hlog : format.minExponent + (format.precision - 1) ≤ Int.log 2 |x| :=
    (Int.zpow_le_iff_le_log one_lt_two hx).mp (by exact_mod_cast h)
  have hexponent : format.exponent x = Int.log 2 |x| + 1 - format.precision := by
    unfold exponent
    omega
  have hle : (2 : ℚ) ^ Int.log 2 |x| ≤ |x| := by
    exact_mod_cast Int.zpow_log_le_self one_lt_two hx
  refine (format.abs_round_sub_le x).trans ?_
  rw [quantum, hexponent, zpow_sub₀ two_ne_zero, zpow_add₀ two_ne_zero, zpow_one, zpow_natCast]
  calc (2 : ℚ) ^ Int.log 2 |x| * 2 / 2 ^ format.precision / 2
      = 2 ^ Int.log 2 |x| / 2 ^ format.precision := by ring
    _ ≤ |x| / 2 ^ format.precision := by gcongr

/-- A multiple of a power of two that is a multiple of the quantum is kept. -/
theorem round_of_exponent_le {m e : ℤ} (h : format.exponent (m * 2 ^ e) ≤ e) :
    format.round (m * 2 ^ e) = m * 2 ^ e := by
  obtain ⟨k, hk⟩ := Int.eq_ofNat_of_zero_le (sub_nonneg.mpr h)
  have hdiv : (m : ℚ) * 2 ^ e / format.quantum (m * 2 ^ e) = ((m * 2 ^ k : ℤ) : ℚ) := by
    rw [quantum, mul_div_assoc, ← zpow_sub₀ two_ne_zero, hk]
    push_cast
    rw [zpow_natCast]
  rw [round, hdiv, roundHalfEven_intCast, ← hdiv,
    div_mul_cancel₀ _ (format.quantum_pos _).ne']

theorem exponent_le_of_lt {e : ℤ} (hx : x ≠ 0) (h : |x| < 2 ^ (e + format.precision))
    (he : format.minExponent ≤ e) : format.exponent x ≤ e := by
  have hlog : Int.log 2 |x| < e + format.precision :=
    (Int.lt_zpow_iff_log_lt one_lt_two (abs_pos.mpr hx)).mp (by exact_mod_cast h)
  unfold exponent
  omega

/-- **The numbers of the format are kept.** -/
theorem round_eq_self {m e : ℤ} (hm : |m| ≤ 2 ^ format.precision)
    (he : format.minExponent ≤ e) : format.round (m * 2 ^ e) = m * 2 ^ e := by
  by_cases hzero : m = 0
  · simp [hzero]
  · have hne : ∀ {n i : ℤ}, n ≠ 0 → (n : ℚ) * 2 ^ i ≠ 0 := fun hn =>
      mul_ne_zero (Int.cast_ne_zero.mpr hn) (zpow_ne_zero _ two_ne_zero)
    have habs : ∀ n i : ℤ, |(n : ℚ) * 2 ^ i| = ((|n| : ℤ) : ℚ) * 2 ^ i := fun n i => by
      rw [abs_mul, abs_of_pos (zpow_pos two_pos i : (0 : ℚ) < 2 ^ i), Int.cast_abs]
    rcases hm.lt_or_eq with hlt | heq
    · refine format.round_of_exponent_le (format.exponent_le_of_lt (hne hzero) ?_ he)
      rw [habs, zpow_add₀ two_ne_zero, zpow_natCast, mul_comm]
      exact mul_lt_mul_of_pos_left (by exact_mod_cast hlt) (zpow_pos two_pos e)
    · obtain ⟨n, rfl⟩ : (2 : ℤ) ∣ m := by
        rw [← dvd_abs, heq]
        exact dvd_pow_self 2 format.precision_pos.ne'
      have hshift : ((2 * n : ℤ) : ℚ) * 2 ^ e = n * 2 ^ (e + 1) := by
        rw [zpow_add₀ two_ne_zero, zpow_one]
        push_cast
        ring
      rw [hshift]
      refine format.round_of_exponent_le (format.exponent_le_of_lt
        (hne (right_ne_zero_of_mul hzero)) ?_ (by omega))
      rw [← hshift, habs, heq, add_right_comm, zpow_add₀ two_ne_zero, zpow_add₀ two_ne_zero,
        zpow_natCast, zpow_one]
      push_cast
      have hpos : (0 : ℚ) < 2 ^ format.precision * 2 ^ e :=
        mul_pos (pow_pos two_pos _) (zpow_pos two_pos e)
      linarith

theorem abs_lt_quantum_mul (x : ℚ) : |x| < format.quantum x * 2 ^ format.precision := by
  calc |x| < 2 ^ (Int.log 2 |x| + 1) := by
        exact_mod_cast Int.lt_zpow_succ_log_self one_lt_two |x|
    _ ≤ 2 ^ (format.exponent x + format.precision) := by
        refine zpow_le_zpow_right₀ one_le_two ?_
        unfold exponent
        omega
    _ = format.quantum x * 2 ^ format.precision := by
        rw [zpow_add₀ two_ne_zero, zpow_natCast, quantum]

/-- A rounded number is a number of the format. -/
@[simp] theorem round_round (x : ℚ) : format.round (format.round x) = format.round x := by
  have hpos := format.quantum_pos x
  obtain ⟨hlo, hhi⟩ := abs_lt.mp (format.abs_lt_quantum_mul x)
  refine format.round_eq_self ?_ (le_max_right _ _)
  rw [abs_le]
  constructor
  · rw [← roundHalfEven_intCast (-2 ^ format.precision)]
    refine roundHalfEven_mono ((le_div_iff₀ hpos).mpr ?_)
    push_cast
    linarith
  · rw [← roundHalfEven_intCast (2 ^ format.precision)]
    refine roundHalfEven_mono ((div_le_iff₀ hpos).mpr ?_)
    push_cast
    linarith

theorem round_le {n : ℤ} (h : x ≤ n * format.quantum x) :
    format.round x ≤ n * format.quantum x := by
  have hpos := format.quantum_pos x
  have hint := roundHalfEven_mono ((div_le_iff₀ hpos).mpr h)
  rw [roundHalfEven_intCast] at hint
  exact mul_le_mul_of_nonneg_right (by exact_mod_cast hint) hpos.le

theorem le_round {n : ℤ} (h : n * format.quantum x ≤ x) :
    n * format.quantum x ≤ format.round x := by
  have hpos := format.quantum_pos x
  have hint := roundHalfEven_mono ((le_div_iff₀ hpos).mpr h)
  rw [roundHalfEven_intCast] at hint
  exact mul_le_mul_of_nonneg_right (by exact_mod_cast hint) hpos.le

theorem round_nonneg (hx : 0 ≤ x) : 0 ≤ format.round x := by
  have h := format.le_round (n := 0) (x := x) (by simpa using hx)
  simpa using h

/-- A power of two is a multiple of each quantum that is no larger. -/
theorem exists_mul_quantum {e : ℤ} (h : format.exponent x ≤ e) :
    ∃ n : ℤ, (2 : ℚ) ^ e = n * format.quantum x := by
  obtain ⟨k, hk⟩ := Int.eq_ofNat_of_zero_le (sub_nonneg.mpr h)
  refine ⟨2 ^ k, ?_⟩
  rw [quantum]
  push_cast
  rw [← zpow_natCast, ← zpow_add₀ two_ne_zero, ← hk, sub_add_cancel]

theorem round_mono_of_pos (hx : 0 < x) (h : x ≤ y) : format.round x ≤ format.round y := by
  have hy : 0 < y := hx.trans_le h
  have hlog := Int.log_mono_right (b := 2) hx h
  have hxe : format.exponent x = max (Int.log 2 x - (format.precision - 1)) format.minExponent := by
    rw [exponent, abs_of_pos hx]
  have hye : format.exponent y = max (Int.log 2 y - (format.precision - 1)) format.minExponent := by
    rw [exponent, abs_of_pos hy]
  by_cases hsame : format.exponent x = format.exponent y
  · have hquantum : format.quantum x = format.quantum y := by rw [quantum, quantum, hsame]
    rw [round, round, hquantum]
    refine mul_le_mul_of_nonneg_right ?_ (format.quantum_pos y).le
    exact_mod_cast roundHalfEven_mono (div_le_div_of_nonneg_right h (format.quantum_pos y).le)
  · have hprecision := format.precision_pos
    have hbelow : (2 : ℚ) ^ Int.log 2 y ≤ y := by
      exact_mod_cast Int.zpow_log_le_self one_lt_two hy
    have habove : x ≤ 2 ^ Int.log 2 y := by
      refine le_of_lt (lt_of_lt_of_le (b := (2 : ℚ) ^ (Int.log 2 x + 1)) ?_ ?_)
      · exact_mod_cast Int.lt_zpow_succ_log_self one_lt_two x
      · exact zpow_le_zpow_right₀ one_le_two (by omega)
    obtain ⟨n, hn⟩ := format.exists_mul_quantum (x := x) (e := Int.log 2 y) (by omega)
    obtain ⟨k, hk⟩ := format.exists_mul_quantum (x := y) (e := Int.log 2 y) (by omega)
    calc format.round x ≤ 2 ^ Int.log 2 y := by
          rw [hn] at habove ⊢
          exact format.round_le habove
      _ ≤ format.round y := by
          rw [hk] at hbelow ⊢
          exact format.le_round hbelow

/-- **Rounding is monotone.** -/
theorem round_mono : Monotone format.round := by
  intro x y h
  rcases lt_or_ge 0 x with hx | hx
  · exact format.round_mono_of_pos hx h
  · have hnonpos : format.round x ≤ 0 := by
      have := format.round_nonneg (neg_nonneg.mpr hx)
      rw [round_neg] at this
      linarith
    rcases le_or_gt 0 y with hy | hy
    · exact hnonpos.trans (format.round_nonneg hy)
    · have := format.round_mono_of_pos (neg_pos.mpr hy) (neg_le_neg h)
      rw [round_neg, round_neg] at this
      linarith

end Format

/-! ## Arithmetic -/

/-- Double-precision arithmetic: the exact operations, rounded, and integer powers of some
precision.  `near` is the accuracy of a result that is zero or a normal number. -/
structure F64 where
  round : ℚ → ℚ
  powi : ℚ → ℤ → ℚ
  near : ∀ x : ℚ, x = 0 ∨ (2 : ℚ) ^ (-1022 : ℤ) ≤ |x| → |round x - x| ≤ |x| / 2 ^ 53

namespace F64

/-- Nothing is rounded. -/
def exact : F64 where
  round x := x
  powi x n := x ^ n
  near x _ := by
    rw [sub_self, abs_zero]
    positivity

/-- To the nearest number of double precision, as IEEE 754 has it. -/
def ieee : F64 where
  round := binary64.round
  powi x n := binary64.round (x ^ n)
  near x h := by
    rcases h with rfl | h
    · rw [Format.round_zero, sub_self, abs_zero, zero_div]
    · exact binary64.abs_round_sub_le_of_normal h

variable (f64 : F64)

def sub (x y : ℚ) : ℚ := f64.round (x - y)

def mul (x y : ℚ) : ℚ := f64.round (x * y)

def div (x y : ℚ) : ℚ := f64.round (x / y)

@[simp] theorem round_zero : f64.round 0 = 0 := by
  have h := f64.near 0 (Or.inl rfl)
  rw [sub_zero, abs_zero, zero_div] at h
  exact abs_nonpos_iff.mp h

/-- Taking something away does not lead past a number of the format. -/
theorem ieee_sub_le {x y c : ℚ} (hc : ieee.round c = c) (hx : x ≤ c) (hy : 0 ≤ y) :
    ieee.sub x y ≤ c := by
  rw [← hc]
  exact binary64.round_mono (by linarith)

/-! ### Errors add up -/

/-- Off by no more than `k` roundings. -/
structure Within (k : Nat) (x y : ℚ) : Prop where
  ge : (1 - 1 / 2 ^ 53) ^ k * y ≤ x
  le : x ≤ (1 + 1 / 2 ^ 53) ^ k * y

variable {f64} {k l : Nat} {x' y' : ℚ}

theorem Within.refl (x : ℚ) : Within 0 x x := ⟨by simp, by simp⟩

theorem Within.nonneg (h : Within k x y) (hy : 0 ≤ y) : 0 ≤ x :=
  le_trans (mul_nonneg (pow_nonneg (by norm_num) k) hy) h.ge

theorem Within.mul (h : Within k x y) (h' : Within l x' y') (hy : 0 ≤ y) (hy' : 0 ≤ y') :
    Within (k + l) (x * x') (y * y') where
  ge := by
    have hlow : 0 ≤ (1 - 1 / 2 ^ 53 : ℚ) ^ l * y' := mul_nonneg (pow_nonneg (by norm_num) l) hy'
    calc (1 - 1 / 2 ^ 53) ^ (k + l) * (y * y')
        = (1 - 1 / 2 ^ 53) ^ k * y * ((1 - 1 / 2 ^ 53) ^ l * y') := by ring
      _ ≤ x * x' := mul_le_mul h.ge h'.ge hlow (h.nonneg hy)
  le := by
    have hhigh : 0 ≤ (1 + 1 / 2 ^ 53 : ℚ) ^ k * y := mul_nonneg (by positivity) hy
    calc x * x' ≤ (1 + 1 / 2 ^ 53) ^ k * y * ((1 + 1 / 2 ^ 53) ^ l * y') :=
          mul_le_mul h.le h'.le (h'.nonneg hy') hhigh
      _ = (1 + 1 / 2 ^ 53) ^ (k + l) * (y * y') := by ring

theorem Within.div_const (h : Within k x y) {c : ℚ} (hc : 0 < c) : Within k (x / c) (y / c) where
  ge := by
    rw [← mul_div_assoc]
    exact div_le_div_of_nonneg_right h.ge hc.le
  le := by
    rw [← mul_div_assoc]
    exact div_le_div_of_nonneg_right h.le hc.le

/-- What is not absurdly small is normal. -/
theorem Within.normal (h : Within k x y) (hk : k ≤ 7) (hy : 1 / 10 ^ 20 ≤ y) :
    (2 : ℚ) ^ (-1022 : ℤ) ≤ x := by
  have hhalf : (1 / 2 : ℚ) ≤ (1 - 1 / 2 ^ 53) ^ k :=
    le_trans (b := (1 - 1 / 2 ^ 53) ^ 7) (by norm_num)
      (pow_le_pow_of_le_one (by norm_num) (by norm_num) hk)
  calc (2 : ℚ) ^ (-1022 : ℤ) ≤ 2 ^ (-100 : ℤ) := zpow_le_zpow_right₀ one_le_two (by norm_num)
    _ ≤ 1 / 2 * (1 / 10 ^ 20) := by norm_num
    _ ≤ (1 - 1 / 2 ^ 53) ^ k * y := mul_le_mul hhalf hy (by norm_num) (by linarith)
    _ ≤ x := h.ge

/-- One more rounding. -/
theorem Within.round (h : Within k x y) (hk : k ≤ 7) (hy : 1 / 10 ^ 20 ≤ y) :
    Within (k + 1) (f64.round x) y := by
  have hnonneg := h.nonneg (le_trans (by norm_num) hy)
  have hnear := f64.near x (Or.inr (by rw [abs_of_nonneg hnonneg]; exact h.normal hk hy))
  rw [abs_of_nonneg hnonneg, abs_le] at hnear
  constructor
  · calc (1 - 1 / 2 ^ 53) ^ (k + 1) * y = (1 - 1 / 2 ^ 53) * ((1 - 1 / 2 ^ 53) ^ k * y) := by ring
      _ ≤ (1 - 1 / 2 ^ 53) * x := mul_le_mul_of_nonneg_left h.ge (by norm_num)
      _ ≤ f64.round x := by linarith [hnear.1]
  · calc f64.round x ≤ (1 + 1 / 2 ^ 53) * x := by linarith [hnear.2]
      _ ≤ (1 + 1 / 2 ^ 53) * ((1 + 1 / 2 ^ 53) ^ k * y) :=
        mul_le_mul_of_nonneg_left h.le (by norm_num)
      _ = (1 + 1 / 2 ^ 53) ^ (k + 1) * y := by ring

/-- Up to seven roundings are worth three bits. -/
theorem Within.abs_sub_le (h : Within k x y) (hk : k ≤ 7) (hy : 0 ≤ y) :
    |x - y| ≤ y / 2 ^ 50 := by
  have hlow : (1 : ℚ) - 1 / 2 ^ 50 ≤ (1 - 1 / 2 ^ 53) ^ 7 := by norm_num
  have hhigh : (1 + 1 / 2 ^ 53 : ℚ) ^ 7 ≤ 1 + 1 / 2 ^ 50 := by norm_num
  have hlow' : (1 - 1 / 2 ^ 53 : ℚ) ^ 7 ≤ (1 - 1 / 2 ^ 53) ^ k :=
    pow_le_pow_of_le_one (by norm_num) (by norm_num) hk
  have hhigh' : (1 + 1 / 2 ^ 53 : ℚ) ^ k ≤ (1 + 1 / 2 ^ 53) ^ 7 :=
    pow_le_pow_right₀ (by norm_num) hk
  rw [abs_le]
  constructor
  · calc -(y / 2 ^ 50) = (1 - 1 / 2 ^ 50) * y - y := by ring
      _ ≤ (1 - 1 / 2 ^ 53) ^ k * y - y := by
          gcongr
          exact hlow.trans hlow'
      _ ≤ x - y := by linarith [h.ge]
  · calc x - y ≤ (1 + 1 / 2 ^ 53) ^ k * y - y := by linarith [h.le]
      _ ≤ (1 + 1 / 2 ^ 50) * y - y := by
          gcongr
          exact hhigh'.trans hhigh
      _ = y / 2 ^ 50 := by ring

end F64

end Rounding
