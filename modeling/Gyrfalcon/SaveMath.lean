import Gyrfalcon.Lib.FixedPoint
import Gyrfalcon.SaveReserve

/-!
# Solend decimals and rates (`patches/solend-sdk/src/math`)

A `Decimal` has 192 bits and a `Rate` 128, both scaled by `WAD`.  Every
operation checks its width before it rounds; the `_eq_ok_iff` lemmas say when
it succeeds and with what.  `Rate::try_pow` squares once more than it uses, so
a power can be lost although it would fit.
-/

namespace Gyrfalcon

open FixedPoint

namespace Solend

/-- The errors of `LendingError` that the functions below return. -/
inductive LendingError where
  | invalidAmount
  | invalidConfig
  | invalidAccountInput
  | mathOverflow
  | insufficientLiquidity
  | borrowTooSmall
  | borrowTooLarge
  | liquidationTooSmall
  | obligationHealthy
  | obligationReserveLimit
  | obligationDepositsEmpty
  | obligationBorrowsEmpty
  | invalidObligationCollateral
  | invalidObligationLiquidity
  | negativeInterestRate
  | outflowRateLimitExceeded
  deriving DecidableEq, Repr

def wad : Nat := 1000000000000000000

def halfWad : Nat := 500000000000000000

def percentScaler : Nat := 10000000000000000

theorem wad_pos : 0 < wad := by decide

/-- The width of a `U192`. -/
def u192Bound : Nat := 2 ^ 192

/-- The width of a `U128`. -/
def u128Bound : Nat := 2 ^ 128

/-! ## Machine words -/

/-- `u64::try_from`. -/
def u64TryFrom (n : Nat) : Except LendingError UInt64 :=
  if n < 2 ^ 64 then .ok (UInt64.ofNat n) else .error .mathOverflow

@[simp] theorem u64TryFrom_eq_ok_iff {n : Nat} {m : UInt64} :
    u64TryFrom n = .ok m ↔ n = m.toNat := by
  unfold u64TryFrom
  constructor
  · intro h
    split at h
    · next hlt =>
      obtain rfl := Except.ok.inj h
      rw [UInt64.toNat_ofNat_of_lt' hlt]
    · cases h
  · rintro rfl
    rw [if_pos m.toNat_lt, UInt64.ofNat_toNat]

/-- `u64::checked_add`. -/
def u64CheckedAdd (a b : UInt64) : Except LendingError UInt64 := u64TryFrom (a.toNat + b.toNat)

/-- `u64::checked_sub`. -/
def u64CheckedSub (a b : UInt64) : Except LendingError UInt64 :=
  if b ≤ a then .ok (a - b) else .error .mathOverflow

@[simp] theorem u64CheckedAdd_eq_ok_iff {a b c : UInt64} :
    u64CheckedAdd a b = .ok c ↔ a.toNat + b.toNat = c.toNat :=
  u64TryFrom_eq_ok_iff

@[simp] theorem u64CheckedSub_eq_ok_iff {a b c : UInt64} :
    u64CheckedSub a b = .ok c ↔ a.toNat = b.toNat + c.toNat := by
  unfold u64CheckedSub
  constructor
  · intro h
    split at h
    · next hle =>
      obtain rfl := Except.ok.inj h
      rw [UInt64.toNat_sub_of_le a b hle]
      have := UInt64.le_iff_toNat_le.mp hle
      omega
    · cases h
  · intro h
    have hle : b ≤ a := UInt64.le_iff_toNat_le.mpr (by omega)
    rw [if_pos hle, Except.ok.injEq, ← UInt64.toNat_inj, UInt64.toNat_sub_of_le a b hle]
    omega

/-- `u64::max`. -/
theorem toNat_max (a b : UInt64) : (max a b).toNat = max a.toNat b.toNat := by
  by_cases h : a ≤ b
  · rw [show max a b = b from if_pos h, Nat.max_eq_right (UInt64.le_iff_toNat_le.mp h)]
  · rw [show max a b = a from if_neg h, Nat.max_eq_left]
    exact (UInt64.lt_iff_toNat_lt.mp (UInt64.not_le.mp h)).le

/-- `u64::min`. -/
theorem toNat_min (a b : UInt64) : (min a b).toNat = min a.toNat b.toNat := by
  by_cases h : a ≤ b
  · rw [show min a b = a from if_pos h, Nat.min_eq_left (UInt64.le_iff_toNat_le.mp h)]
  · rw [show min a b = b from if_neg h, Nat.min_eq_right]
    exact (UInt64.lt_iff_toNat_lt.mp (UInt64.not_le.mp h)).le

/-! ## Rates -/

/-- `Rate`, a small decimal: at most 128 bits. -/
structure Rate where
  scaledVal : Nat
  lt : scaledVal < u128Bound
  deriving DecidableEq, Repr

namespace Rate

theorem ext {a b : Rate} (h : a.scaledVal = b.scaledVal) : a = b := by
  cases a
  cases b
  cases h
  rfl

instance : LinearOrder Rate := LinearOrder.lift' Rate.scaledVal fun _ _ h => ext h

theorem le_iff {a b : Rate} : a ≤ b ↔ a.scaledVal ≤ b.scaledVal := Iff.rfl

/-- A result of 128 bits. -/
def check (n : Nat) : Except LendingError Rate :=
  if h : n < u128Bound then .ok ⟨n, h⟩ else .error .mathOverflow

@[simp] theorem check_eq_ok_iff {n : Nat} {r : Rate} : check n = .ok r ↔ n = r.scaledVal := by
  unfold check
  constructor
  · intro h
    split at h
    · obtain rfl := Except.ok.inj h
      rfl
    · cases h
  · rintro rfl
    rw [dif_pos r.lt]

def one : Rate := ⟨wad, by decide⟩

def zero : Rate := ⟨0, by decide⟩

theorem percent_lt (percent : UInt8) : percent.toNat * percentScaler < u128Bound := by
  have := percent.toNat_lt
  unfold percentScaler u128Bound
  omega

theorem percent_u64_lt (percent : UInt64) : percent.toNat * percentScaler < u128Bound := by
  have := percent.toNat_lt
  unfold percentScaler u128Bound
  omega

theorem u64_lt (scaledVal : UInt64) : scaledVal.toNat < u128Bound := by
  have := scaledVal.toNat_lt
  unfold u128Bound
  omega

def fromPercent (percent : UInt8) : Rate := ⟨percent.toNat * percentScaler, percent_lt percent⟩

def fromPercentU64 (percent : UInt64) : Rate :=
  ⟨percent.toNat * percentScaler, percent_u64_lt percent⟩

def fromScaledVal (scaledVal : UInt64) : Rate := ⟨scaledVal.toNat, u64_lt scaledVal⟩

@[simp] theorem one_scaledVal : one.scaledVal = wad := rfl

@[simp] theorem zero_scaledVal : zero.scaledVal = 0 := rfl

@[simp] theorem fromPercent_scaledVal (percent : UInt8) :
    (fromPercent percent).scaledVal = percent.toNat * percentScaler := rfl

@[simp] theorem fromPercentU64_scaledVal (percent : UInt64) :
    (fromPercentU64 percent).scaledVal = percent.toNat * percentScaler := rfl

@[simp] theorem fromScaledVal_scaledVal (scaledVal : UInt64) :
    (fromScaledVal scaledVal).scaledVal = scaledVal.toNat := rfl

def tryAdd (self rhs : Rate) : Except LendingError Rate := check (self.scaledVal + rhs.scaledVal)

def trySub (self rhs : Rate) : Except LendingError Rate :=
  if rhs.scaledVal ≤ self.scaledVal then check (self.scaledVal - rhs.scaledVal)
  else .error .mathOverflow

/-- `TryDiv<u64>`. -/
def tryDivU64 (self : Rate) (rhs : Nat) : Except LendingError Rate :=
  if rhs = 0 then .error .mathOverflow else check (self.scaledVal / rhs)

/-- `TryDiv<Rate>`. -/
def tryDiv (self rhs : Rate) : Except LendingError Rate := do
  let scaled ← checked u128Bound .mathOverflow (self.scaledVal * wad)
  if rhs.scaledVal = 0 then .error .mathOverflow else check (scaled / rhs.scaledVal)

/-- `TryMul<Rate>`. -/
def tryMul (self rhs : Rate) : Except LendingError Rate := do
  let product ← checked u128Bound .mathOverflow (self.scaledVal * rhs.scaledVal)
  check (product / wad)

/-- `base^exp`. -/
def tryPow (self : Rate) (exp : Nat) : Except LendingError Rate :=
  powLoop tryMul self (if exp % 2 ≠ 0 then self else one) exp

variable {a b c : Rate}

@[simp] theorem tryAdd_eq_ok_iff :
    a.tryAdd b = .ok c ↔ a.scaledVal + b.scaledVal = c.scaledVal :=
  check_eq_ok_iff

@[simp] theorem trySub_eq_ok_iff :
    a.trySub b = .ok c ↔ a.scaledVal = b.scaledVal + c.scaledVal := by
  unfold trySub
  split
  · rw [check_eq_ok_iff]
    omega
  · refine iff_of_false (nomatch ·) ?_
    omega

@[simp] theorem tryDivU64_eq_ok_iff {n : Nat} :
    a.tryDivU64 n = .ok c ↔ n ≠ 0 ∧ a.scaledVal / n = c.scaledVal := by
  unfold tryDivU64
  split <;> simp_all

@[simp] theorem tryDiv_eq_ok_iff :
    a.tryDiv b = .ok c ↔ a.scaledVal * wad < u128Bound ∧ b.scaledVal ≠ 0 ∧
      a.scaledVal * wad / b.scaledVal = c.scaledVal := by
  unfold tryDiv
  by_cases hb : b.scaledVal = 0
  · simp [hb]
  · simp [hb]

@[simp] theorem tryMul_eq_ok_iff :
    a.tryMul b = .ok c ↔ a.scaledVal * b.scaledVal < u128Bound ∧
      a.scaledVal * b.scaledVal / wad = c.scaledVal := by
  simp [tryMul]

theorem floorMul_tryMul : FloorMul tryMul scaledVal wad u128Bound where
  of_ok h := by
    obtain ⟨hlt, hval⟩ := tryMul_eq_ok_iff.mp h
    exact ⟨hlt, hval.symm⟩
  exists_ok {a b} h :=
    ⟨⟨a.scaledVal * b.scaledVal / wad, Nat.lt_of_le_of_lt (Nat.div_le_self _ _) h⟩,
      tryMul_eq_ok_iff.mpr ⟨h, rfl⟩⟩

/-- **Compounding.**  A power of one plus `x` is at least simple interest and at
most the exact power. -/
theorem tryPow_bounds {exp x : Nat} (hbase : a.scaledVal = wad + x) (h : a.tryPow exp = .ok c) :
    wad + exp * x ≤ c.scaledVal ∧ c.scaledVal * wad ^ exp ≤ wad * a.scaledVal ^ exp := by
  unfold tryPow at h
  have hupper := powLoop_le floorMul_tryMul h
  have hsplit : exp = 2 * (exp / 2) + exp % 2 := by omega
  by_cases hodd : exp % 2 ≠ 0
  · rw [if_pos hodd] at h hupper
    have hone : exp % 2 = 1 := by omega
    have hlower := le_powLoop floorMul_tryMul wad_pos hbase.ge hbase.ge h
    constructor
    · calc wad + exp * x = wad + x + 2 * (exp / 2) * x := by
            conv_lhs => rw [hsplit, hone]
            ring
        _ ≤ c.scaledVal := hlower
    · conv_lhs => rw [hsplit, hone]
      conv_rhs => rw [hsplit, hone]
      calc c.scaledVal * wad ^ (2 * (exp / 2) + 1)
          = c.scaledVal * wad ^ (2 * (exp / 2)) * wad := by ring
        _ ≤ a.scaledVal * a.scaledVal ^ (2 * (exp / 2)) * wad := Nat.mul_le_mul_right _ hupper
        _ = wad * a.scaledVal ^ (2 * (exp / 2) + 1) := by ring
  · rw [if_neg hodd] at h hupper
    have hzero : exp % 2 = 0 := by omega
    have hlower := le_powLoop floorMul_tryMul wad_pos hbase.ge (y := 0) (by simp) h
    rw [hzero, add_zero] at hsplit
    rw [← hsplit] at hlower hupper
    exact ⟨by simpa using hlower, hupper⟩

/-- A power is computed exactly when no square on the way, the unused last one
included, leaves 128 bits. -/
theorem exists_tryPow_iff {exp : Nat} (hbase : wad ≤ a.scaledVal) :
    (∃ c, a.tryPow exp = .ok c) ↔ ∀ k, 2 ^ k ≤ exp →
      (square wad)^[k] a.scaledVal * (square wad)^[k] a.scaledVal < u128Bound := by
  refine exists_powLoop_iff floorMul_tryMul wad_pos hbase ?_
  have hsquare : a.scaledVal ≤ square wad a.scaledVal := le_mul_div_self wad_pos hbase
  split
  · exact hsquare
  · exact hbase.trans hsquare

/-- An exponent that overflows makes every larger one overflow. -/
theorem tryPow_fails_of_le {exp exp' : Nat} (hbase : wad ≤ a.scaledVal) (hle : exp ≤ exp')
    (h : ¬ ∃ c, a.tryPow exp = .ok c) : ¬ ∃ c, a.tryPow exp' = .ok c := by
  rw [exists_tryPow_iff hbase] at h ⊢
  exact fun h' => h fun k hk => h' k (hk.trans hle)

end Rate

/-! ## Decimals -/

namespace Decimal

theorem ext {a b : Decimal} (h : a.scaledVal = b.scaledVal) : a = b := by
  cases a
  cases b
  cases h
  rfl

instance : LinearOrder Decimal := LinearOrder.lift' Decimal.scaledVal fun _ _ h => ext h

theorem le_iff {a b : Decimal} : a ≤ b ↔ a.scaledVal ≤ b.scaledVal := Iff.rfl

theorem lt_iff {a b : Decimal} : a < b ↔ a.scaledVal < b.scaledVal := by
  rw [← not_le, ← not_le, le_iff]

@[simp] theorem min_scaledVal (a b : Decimal) :
    (min a b).scaledVal = min a.scaledVal b.scaledVal := by
  rcases le_total a b with h | h
  · rw [min_eq_left h, min_eq_left (le_iff.mp h)]
  · rw [min_eq_right h, min_eq_right (le_iff.mp h)]

@[simp] theorem max_scaledVal (a b : Decimal) :
    (max a b).scaledVal = max a.scaledVal b.scaledVal := by
  rcases le_total a b with h | h
  · rw [max_eq_right h, max_eq_right (le_iff.mp h)]
  · rw [max_eq_left h, max_eq_left (le_iff.mp h)]

def zero : Decimal := ⟨0⟩

def one : Decimal := ⟨wad⟩

/-- `From<u64>` and `From<u128>`. -/
def ofNat (val : Nat) : Decimal := ⟨wad * val⟩

/-- `From<Rate>`. -/
def ofRate (val : Rate) : Decimal := ⟨val.scaledVal⟩

def fromPercent (percent : UInt8) : Decimal := ⟨percent.toNat * percentScaler⟩

/-- `Self::from(deca_bps as u64).try_div(1000).unwrap()`. -/
def fromDecaBps (decaBps : UInt8) : Decimal := ⟨wad * decaBps.toNat / 1000⟩

/-- `Self::from(bps).try_div(10_000).unwrap()`. -/
def fromBps (bps : Nat) : Decimal := ⟨wad * bps / 10000⟩

@[simp] theorem zero_scaledVal : zero.scaledVal = 0 := rfl

@[simp] theorem one_scaledVal : one.scaledVal = wad := rfl

@[simp] theorem ofNat_scaledVal (val : Nat) : (ofNat val).scaledVal = wad * val := rfl

@[simp] theorem ofRate_scaledVal (val : Rate) : (ofRate val).scaledVal = val.scaledVal := rfl

@[simp] theorem fromPercent_scaledVal (percent : UInt8) :
    (fromPercent percent).scaledVal = percent.toNat * percentScaler := rfl

@[simp] theorem fromDecaBps_scaledVal (decaBps : UInt8) :
    (fromDecaBps decaBps).scaledVal = wad * decaBps.toNat / 1000 := rfl

@[simp] theorem fromBps_scaledVal (bps : Nat) : (fromBps bps).scaledVal = wad * bps / 10000 := rfl

/-- A result of 192 bits. -/
def check (n : Nat) : Except LendingError Decimal :=
  if n < u192Bound then .ok ⟨n⟩ else .error .mathOverflow

/-- `to_scaled_val`, for `Rate::try_from`. -/
def tryIntoRate (self : Decimal) : Except LendingError Rate := Rate.check self.scaledVal

def tryAdd (self rhs : Decimal) : Except LendingError Decimal :=
  check (self.scaledVal + rhs.scaledVal)

def trySub (self rhs : Decimal) : Except LendingError Decimal :=
  if rhs.scaledVal ≤ self.scaledVal then .ok ⟨self.scaledVal - rhs.scaledVal⟩
  else .error .mathOverflow

/-- `TryDiv<u64>`. -/
def tryDivU64 (self : Decimal) (rhs : Nat) : Except LendingError Decimal :=
  if rhs = 0 then .error .mathOverflow else .ok ⟨self.scaledVal / rhs⟩

/-- `TryDiv<Decimal>`. -/
def tryDiv (self rhs : Decimal) : Except LendingError Decimal := do
  let scaled ← checked u192Bound .mathOverflow (self.scaledVal * wad)
  if rhs.scaledVal = 0 then .error .mathOverflow else .ok ⟨scaled / rhs.scaledVal⟩

/-- `TryDiv<Rate>`. -/
def tryDivRate (self : Decimal) (rhs : Rate) : Except LendingError Decimal :=
  self.tryDiv (ofRate rhs)

/-- `TryMul<u64>`. -/
def tryMulU64 (self : Decimal) (rhs : Nat) : Except LendingError Decimal :=
  check (self.scaledVal * rhs)

/-- `TryMul<Decimal>`. -/
def tryMul (self rhs : Decimal) : Except LendingError Decimal := do
  let product ← checked u192Bound .mathOverflow (self.scaledVal * rhs.scaledVal)
  return ⟨product / wad⟩

/-- `TryMul<Rate>`. -/
def tryMulRate (self : Decimal) (rhs : Rate) : Except LendingError Decimal :=
  self.tryMul (ofRate rhs)

def tryRoundU64 (self : Decimal) : Except LendingError UInt64 := do
  let sum ← checked u192Bound .mathOverflow (halfWad + self.scaledVal)
  u64TryFrom (sum / wad)

def tryCeilU64 (self : Decimal) : Except LendingError UInt64 := do
  let sum ← checked u192Bound .mathOverflow (wad - 1 + self.scaledVal)
  u64TryFrom (sum / wad)

def tryFloorU64 (self : Decimal) : Except LendingError UInt64 := u64TryFrom (self.scaledVal / wad)

variable {a b c : Decimal}

@[simp] theorem check_eq_ok_iff {n : Nat} : check n = .ok c ↔ n < u192Bound ∧ ⟨n⟩ = c := by
  unfold check
  split <;> simp_all

@[simp] theorem tryIntoRate_eq_ok_iff {r : Rate} :
    a.tryIntoRate = .ok r ↔ a.scaledVal = r.scaledVal :=
  Rate.check_eq_ok_iff

@[simp] theorem tryAdd_eq_ok_iff :
    a.tryAdd b = .ok c ↔ a.scaledVal + b.scaledVal < u192Bound ∧
      ⟨a.scaledVal + b.scaledVal⟩ = c :=
  check_eq_ok_iff

@[simp] theorem trySub_eq_ok_iff :
    a.trySub b = .ok c ↔ b.scaledVal ≤ a.scaledVal ∧ ⟨a.scaledVal - b.scaledVal⟩ = c := by
  unfold trySub
  split <;> simp_all

theorem le_of_tryAdd_eq_error {e : LendingError} (h : a.tryAdd b = .error e) :
    u192Bound ≤ a.scaledVal + b.scaledVal := by
  by_contra hlt
  rw [tryAdd_eq_ok_iff.mpr ⟨Nat.lt_of_not_le hlt, rfl⟩] at h
  cases h

theorem lt_of_trySub_eq_error {e : LendingError} (h : a.trySub b = .error e) :
    a.scaledVal < b.scaledVal := by
  by_contra hle
  rw [trySub_eq_ok_iff.mpr ⟨Nat.le_of_not_lt hle, rfl⟩] at h
  cases h

@[simp] theorem tryDivU64_eq_ok_iff {n : Nat} :
    a.tryDivU64 n = .ok c ↔ n ≠ 0 ∧ ⟨a.scaledVal / n⟩ = c := by
  unfold tryDivU64
  split <;> simp_all

@[simp] theorem tryDiv_eq_ok_iff :
    a.tryDiv b = .ok c ↔ a.scaledVal * wad < u192Bound ∧ b.scaledVal ≠ 0 ∧
      ⟨a.scaledVal * wad / b.scaledVal⟩ = c := by
  unfold tryDiv
  by_cases hb : b.scaledVal = 0
  · simp [hb]
  · simp [hb]

@[simp] theorem tryDivRate_eq_ok_iff {r : Rate} :
    a.tryDivRate r = .ok c ↔ a.scaledVal * wad < u192Bound ∧ r.scaledVal ≠ 0 ∧
      ⟨a.scaledVal * wad / r.scaledVal⟩ = c :=
  tryDiv_eq_ok_iff

@[simp] theorem tryMulU64_eq_ok_iff {n : Nat} :
    a.tryMulU64 n = .ok c ↔ a.scaledVal * n < u192Bound ∧ ⟨a.scaledVal * n⟩ = c :=
  check_eq_ok_iff

@[simp] theorem tryMul_eq_ok_iff :
    a.tryMul b = .ok c ↔ a.scaledVal * b.scaledVal < u192Bound ∧
      ⟨a.scaledVal * b.scaledVal / wad⟩ = c := by
  simp [tryMul]

@[simp] theorem tryMulRate_eq_ok_iff {r : Rate} :
    a.tryMulRate r = .ok c ↔ a.scaledVal * r.scaledVal < u192Bound ∧
      ⟨a.scaledVal * r.scaledVal / wad⟩ = c :=
  tryMul_eq_ok_iff

@[simp] theorem tryRoundU64_eq_ok_iff {n : UInt64} :
    a.tryRoundU64 = .ok n ↔ halfWad + a.scaledVal < u192Bound ∧
      (halfWad + a.scaledVal) / wad = n.toNat := by
  simp [tryRoundU64]

@[simp] theorem tryCeilU64_eq_ok_iff {n : UInt64} :
    a.tryCeilU64 = .ok n ↔ wad - 1 + a.scaledVal < u192Bound ∧
      (wad - 1 + a.scaledVal) / wad = n.toNat := by
  simp [tryCeilU64]

@[simp] theorem tryFloorU64_eq_ok_iff {n : UInt64} :
    a.tryFloorU64 = .ok n ↔ a.scaledVal / wad = n.toNat :=
  u64TryFrom_eq_ok_iff

end Decimal

end Solend

end Gyrfalcon
