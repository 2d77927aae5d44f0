import Gyrfalcon.SaveObligation

/-!
# Borrowing against collateral (`patches/solend-sdk/src/state`)

The prices that value a reserve's tokens, the fees on a loan, how much may be
borrowed (`Reserve::calculate_borrow`) and how much collateral may be taken back
(`Obligation::max_withdraw_amount`).  Values come out of several quotients, each
rounded down; `calculateBorrow_bounds` and `maxWithdrawAmount_safe` say that by
the code's own valuation neither limit is passed.
-/

namespace Gyrfalcon

open FixedPoint Fallible

namespace Solend

/-! ## Prices -/

/-- `10.checked_pow(decimals)` of a width. -/
def pow10 (bound : Nat) (decimals : UInt8) : Except LendingError Nat :=
  checked bound .mathOverflow (10 ^ decimals.toNat)

namespace Reserve

/-- One and `added_borrow_weight_bps`. -/
def borrowWeight (self : Reserve) : Decimal :=
  ⟨wad + (Decimal.fromBps self.config.addedBorrowWeightBps.toNat).scaledVal⟩

/-- The sum is never too large to be unwrapped. -/
theorem tryAdd_borrowWeight (self : Reserve) :
    Decimal.one.tryAdd (.fromBps self.config.addedBorrowWeightBps.toNat) =
      .ok self.borrowWeight := by
  refine Decimal.tryAdd_eq_ok_iff.mpr ⟨?_, rfl⟩
  have hlt := self.config.addedBorrowWeightBps.toNat_lt
  calc wad + wad * self.config.addedBorrowWeightBps.toNat / 10000
      ≤ wad + wad * 2 ^ 64 :=
        Nat.add_le_add_left ((Nat.div_le_self _ _).trans (Nat.mul_le_mul_left _ hlt.le)) _
    _ < u192Bound := by decide

def loanToValueRatio (self : Reserve) : Rate := .fromPercent self.config.loanToValueRatio

def priceUpperBound (self : Reserve) : Decimal :=
  let price := max self.liquidity.marketPrice self.liquidity.smoothedMarketPrice
  match self.liquidity.extraMarketPrice with
  | some extraPrice => max price extraPrice
  | none => price

def priceLowerBound (self : Reserve) : Decimal :=
  let price := min self.liquidity.marketPrice self.liquidity.smoothedMarketPrice
  match self.liquidity.extraMarketPrice with
  | some extraPrice => min price extraPrice
  | none => price

/-- The value of tokens at a price. -/
def valueAt (self : Reserve) (price liquidityAmount : Decimal) : Except LendingError Decimal := do
  let value ← price.tryMul liquidityAmount
  let decimals ← pow10 u128Bound self.liquidity.mintDecimals
  value.tryDiv (.ofNat decimals)

def marketValue (self : Reserve) (liquidityAmount : Decimal) : Except LendingError Decimal :=
  self.valueAt self.liquidity.marketPrice liquidityAmount

def marketValueUpperBound (self : Reserve) (liquidityAmount : Decimal) :
    Except LendingError Decimal :=
  self.valueAt self.priceUpperBound liquidityAmount

def marketValueLowerBound (self : Reserve) (liquidityAmount : Decimal) :
    Except LendingError Decimal :=
  self.valueAt self.priceLowerBound liquidityAmount

def usdToLiquidityAmountLowerBound (self : Reserve) (quoteAmount : Decimal) :
    Except LendingError Decimal := do
  let decimals ← pow10 u128Bound self.liquidity.mintDecimals
  let amount ← quoteAmount.tryMul (.ofNat decimals)
  amount.tryDiv self.priceUpperBound

variable {self : Reserve} {price amount value : Decimal}

theorem valueAt_mul_le (h : self.valueAt price amount = .ok value) :
    value.scaledVal * (10 ^ self.liquidity.mintDecimals.toNat * wad) ≤
      price.scaledVal * amount.scaledVal := by
  simp only [valueAt, pow10, bind_eq_ok_iff, checked_eq_ok_iff, Decimal.tryMul_eq_ok_iff,
    Decimal.tryDiv_eq_ok_iff] at h
  obtain ⟨_, ⟨-, rfl⟩, _, ⟨-, rfl⟩, -, -, rfl⟩ := h
  calc price.scaledVal * amount.scaledVal / wad * wad /
        (wad * 10 ^ self.liquidity.mintDecimals.toNat) *
          (10 ^ self.liquidity.mintDecimals.toNat * wad)
      = price.scaledVal * amount.scaledVal / wad * wad /
        (wad * 10 ^ self.liquidity.mintDecimals.toNat) *
          (wad * 10 ^ self.liquidity.mintDecimals.toNat) := by ring
    _ ≤ price.scaledVal * amount.scaledVal / wad * wad := Nat.div_mul_le_self _ _
    _ ≤ price.scaledVal * amount.scaledVal := Nat.div_mul_le_self _ _

/-- An amount of which a quote pays every token, at a price. -/
theorem valueAt_le {quote : Nat} (h : self.valueAt price amount = .ok value)
    (hpaid : price.scaledVal * amount.scaledVal ≤
      quote * (10 ^ self.liquidity.mintDecimals.toNat * wad)) : value.scaledVal ≤ quote := by
  refine Nat.le_of_mul_le_mul_right ((valueAt_mul_le h).trans hpaid) ?_
  exact Nat.mul_pos (Nat.pow_pos (by decide)) wad_pos

/-- The tokens a quote pays for are worth no more than it. -/
theorem usdToLiquidityAmountLowerBound_worth {quote : Decimal}
    (h : self.usdToLiquidityAmountLowerBound quote = .ok amount)
    (hvalue : self.marketValueUpperBound amount = .ok value) : value ≤ quote := by
  simp only [usdToLiquidityAmountLowerBound, pow10, bind_eq_ok_iff, checked_eq_ok_iff,
    Decimal.tryMul_eq_ok_iff, Decimal.tryDiv_eq_ok_iff, Decimal.ofNat_scaledVal] at h
  obtain ⟨d, ⟨-, hd⟩, _, ⟨-, rfl⟩, -, -, rfl⟩ := h
  refine Decimal.le_iff.mpr (valueAt_le hvalue ?_)
  dsimp only
  rw [mul_comm self.priceUpperBound.scaledVal]
  calc quote.scaledVal * (wad * d) / wad * wad / self.priceUpperBound.scaledVal *
        self.priceUpperBound.scaledVal
      ≤ quote.scaledVal * (wad * d) / wad * wad := Nat.div_mul_le_self _ _
    _ ≤ quote.scaledVal * (wad * d) := Nat.div_mul_le_self _ _
    _ = quote.scaledVal * (10 ^ self.liquidity.mintDecimals.toNat * wad) := by
      rw [← hd]
      ring

end Reserve

/-! ## Fees -/

inductive FeeCalculation where
  | exclusive
  | inclusive
  deriving DecidableEq, Repr

end Solend

namespace ReserveFees

open Solend

/-- The part of an amount that is the fee, before rounding. -/
def feeAmount (amount : Decimal) (borrowFeeRate : Rate) :
    FeeCalculation → Except LendingError Decimal
  | .exclusive => amount.tryMulRate borrowFeeRate
  | .inclusive => do
    let sum ← borrowFeeRate.tryAdd .one
    let borrowFeeRate ← borrowFeeRate.tryDiv sum
    amount.tryMulRate borrowFeeRate

def calculateFees (self : ReserveFees) (amount : Decimal) (feeWad : UInt64)
    (feeCalculation : FeeCalculation) : Except LendingError (UInt64 × UInt64) := do
  let borrowFeeRate := Rate.fromScaledVal feeWad
  let hostFeeRate := Rate.fromPercent self.hostFeePercentage
  if Rate.zero < borrowFeeRate ∧ Decimal.zero < amount then
    let minimumFee := if Rate.zero < hostFeeRate then 2 else 1
    let borrowFeeAmount ← feeAmount amount borrowFeeRate feeCalculation
    let borrowFeeDecimal := max borrowFeeAmount (.ofNat minimumFee)
    refuseIf (amount ≤ borrowFeeDecimal) .borrowTooSmall
    let borrowFee ← borrowFeeDecimal.tryRoundU64
    let hostFee ← (if Rate.zero < hostFeeRate then do
      let hostFee ← borrowFeeDecimal.tryMulRate hostFeeRate
      let hostFee ← hostFee.tryRoundU64
      return max hostFee 1
    else return 0)
    return (borrowFee, hostFee)
  else return (0, 0)

def calculateBorrowFees (self : ReserveFees) (borrowAmount : Decimal)
    (feeCalculation : FeeCalculation) : Except LendingError (UInt64 × UInt64) :=
  self.calculateFees borrowAmount self.borrowFeeWad feeCalculation

def calculateFlashLoanFees (self : ReserveFees) (flashLoanAmount : Decimal) :
    Except LendingError (UInt64 × UInt64) := do
  let (totalFees, hostFee) ← self.calculateFees flashLoanAmount self.flashLoanFeeWad .exclusive
  let originationFee ← u64CheckedSub totalFees hostFee
  return (originationFee, hostFee)

/-- What a fee comes to: `due` rounded to the nearest, at least one token, and the host's
part of it, at least one token unless the host has none. -/
structure Split (hostPercentage : Nat) (amount due : Nat) (fee host : UInt64) : Prop where
  due_lt : due < amount
  fee_le : wad * fee.toNat ≤ halfWad + due
  le_fee : due < wad * fee.toNat + halfWad
  one_le : 1 ≤ fee.toNat
  host_le : host.toNat ≤ fee.toNat
  host_pos : 0 < hostPercentage → 1 ≤ host.toNat
  host_lt : hostPercentage ≤ 60 → host.toNat < fee.toNat

variable {self : ReserveFees} {amount : Decimal} {feeWad : UInt64} {mode : FeeCalculation}
  {fee host : UInt64}

theorem zero_lt_fromPercent_iff {percent : UInt8} :
    Rate.zero < Rate.fromPercent percent ↔ 0 < percent.toNat := by
  rw [← not_le, Rate.le_iff, Rate.fromPercent_scaledVal, Rate.zero_scaledVal, Nat.le_zero,
    Nat.mul_eq_zero, or_iff_left (by decide), Nat.pos_iff_ne_zero]

/-- The host's part of a fee of at least `least` tokens, rounded to the nearest. -/
theorem split_of_host {percent due : Nat} (hpercent : percent ≤ 100) (hleast : 2 * wad ≤ due) :
    (halfWad + due * (percent * percentScaler) / wad) / wad ≤ (halfWad + due) / wad ∧
      2 ≤ (halfWad + due) / wad ∧ (percent ≤ 60 →
        (halfWad + due * (percent * percentScaler) / wad) / wad < (halfWad + due) / wad) := by
  have hscale : wad = 100 * percentScaler := by decide
  obtain ⟨part, hpart⟩ : ∃ part, due * (percent * percentScaler) / wad = part := ⟨_, rfl⟩
  have hpct : part * 100 ≤ due * percent := by
    have hle : part * wad ≤ due * (percent * percentScaler) := hpart ▸ Nat.div_mul_le_self _ _
    rw [hscale, ← mul_assoc, ← mul_assoc] at hle
    exact Nat.le_of_mul_le_mul_right hle (by decide)
  rw [hpart]
  have hall : part * 100 ≤ due * 100 := hpct.trans (Nat.mul_le_mul_left _ hpercent)
  unfold wad halfWad at *
  refine ⟨by omega, by omega, fun hsixty => ?_⟩
  have hmost : part * 100 ≤ due * 60 := hpct.trans (Nat.mul_le_mul_left _ hsixty)
  omega

theorem calculateFees_zero (h : self.calculateFees amount feeWad mode = .ok (fee, host))
    (hzero : ¬ (Rate.zero < Rate.fromScaledVal feeWad ∧ Decimal.zero < amount)) :
    fee = 0 ∧ host = 0 := by
  rw [calculateFees, if_neg hzero] at h
  have := Except.ok.inj h
  exact ⟨(congrArg Prod.fst this).symm, (congrArg Prod.snd this).symm⟩

/-- A fee above zero. -/
theorem calculateFees_split (hhost : self.hostFeePercentage.toNat ≤ 100)
    (h : self.calculateFees amount feeWad mode = .ok (fee, host))
    (hpos : Rate.zero < Rate.fromScaledVal feeWad ∧ Decimal.zero < amount) :
    ∃ part : Decimal, feeAmount amount (.fromScaledVal feeWad) mode = .ok part ∧
      Split self.hostFeePercentage.toNat amount.scaledVal (max part.scaledVal
        (wad * if 0 < self.hostFeePercentage.toNat then 2 else 1)) fee host := by
  rw [calculateFees, if_pos hpos] at h
  simp only [bind_eq_ok_iff, pure_eq_ok_iff, refuseIf_eq_ok_iff, exists_const,
    zero_lt_fromPercent_iff, Decimal.tryRoundU64_eq_ok_iff] at h
  obtain ⟨part, hpart, hless, fee', ⟨-, hfee⟩, host', hhost', heq⟩ := h
  obtain ⟨rfl, rfl⟩ := Prod.mk.inj heq
  refine ⟨part, hpart, ?_⟩
  rw [not_le, Decimal.lt_iff, Decimal.max_scaledVal, Decimal.ofNat_scaledVal] at hless
  rw [Decimal.max_scaledVal, Decimal.ofNat_scaledVal] at hfee
  obtain ⟨due, hdue⟩ : ∃ due, max part.scaledVal
    (wad * if 0 < self.hostFeePercentage.toNat then 2 else 1) = due := ⟨_, rfl⟩
  have hmin := hdue ▸ Nat.le_max_right part.scaledVal _
  rw [hdue] at hless hfee ⊢
  have hround := Nat.div_add_mod (halfWad + due) wad
  have hmod := Nat.mod_lt (halfWad + due) wad_pos
  rw [hfee] at hround
  have hdouble : wad = halfWad + halfWad := rfl
  by_cases hneed : 0 < self.hostFeePercentage.toNat
  · rw [if_pos hneed] at hhost' hmin
    simp only [bind_eq_ok_iff, pure_eq_ok_iff, Decimal.tryMulRate_eq_ok_iff,
      Decimal.tryRoundU64_eq_ok_iff] at hhost'
    obtain ⟨_, ⟨-, rfl⟩, rounded, ⟨-, hrounded⟩, rfl⟩ := hhost'
    rw [Decimal.max_scaledVal, Decimal.ofNat_scaledVal, if_pos hneed] at hrounded
    rw [if_pos hneed] at hdue
    rw [hdue, Rate.fromPercent_scaledVal] at hrounded
    obtain ⟨hle, htwo, hlt⟩ := split_of_host hhost (by omega : 2 * wad ≤ due)
    rw [hrounded, hfee] at hle hlt
    rw [hfee] at htwo
    have hmax := toNat_max rounded 1
    rw [show UInt64.toNat 1 = 1 from rfl] at hmax
    exact ⟨hless, by omega, by omega, by omega, by omega, fun _ => by omega,
      fun hsixty => by have := hlt hsixty; omega⟩
  · rw [if_neg hneed, pure_eq_ok_iff] at hhost'
    rw [if_neg hneed] at hmin
    subst hhost'
    have hone : 1 ≤ fee'.toNat := by
      rw [← hfee, Nat.le_div_iff_mul_le wad_pos]
      omega
    exact ⟨hless, by omega, by omega, hone, Nat.zero_le _, fun hp => absurd hp hneed, fun _ => hone⟩

theorem host_le_fee (hhost : self.hostFeePercentage.toNat ≤ 100)
    (h : self.calculateFees amount feeWad mode = .ok (fee, host)) : host.toNat ≤ fee.toNat := by
  by_cases hpos : Rate.zero < Rate.fromScaledVal feeWad ∧ Decimal.zero < amount
  · obtain ⟨_, -, hsplit⟩ := calculateFees_split hhost h hpos
    exact hsplit.host_le
  · obtain ⟨rfl, rfl⟩ := calculateFees_zero h hpos
    exact Nat.le_refl _

/-- **The fee of a flash loan.**  Under an accepted configuration a fee that can be
computed can be split: the parts add up to it, and unless the rate or the amount is zero
each party that has a part gets a token, the owner as long as the host has at most 60
percent.  The fee is the exact one, but at least a token each, rounded to the nearest. -/
theorem calculateFlashLoanFees_split (config : ReserveConfig) (amount : Decimal)
    (fee host : UInt64) (hconfig : validateReserveConfig config = .ok ())
    (h : config.fees.calculateFees amount config.fees.flashLoanFeeWad .exclusive =
      .ok (fee, host)) :
    ∃ origination, config.fees.calculateFlashLoanFees amount = .ok (origination, host) ∧
      origination.toNat + host.toNat = fee.toNat ∧
        (0 < config.fees.flashLoanFeeWad.toNat → 0 < amount.scaledVal →
          let due := max (amount.scaledVal * config.fees.flashLoanFeeWad.toNat / wad)
            (wad * if 0 < config.fees.hostFeePercentage.toNat then 2 else 1)
          wad * fee.toNat ≤ halfWad + due ∧ due < wad * fee.toNat + halfWad ∧
            (0 < config.fees.hostFeePercentage.toNat → 0 < host.toNat) ∧
              (config.fees.hostFeePercentage.toNat ≤ 60 → 0 < origination.toNat)) := by
  have hhost := (validConfig_of_ok hconfig).hostFee_le
  have hle := host_le_fee hhost h
  have hsub := UInt64.toNat_sub_of_le fee host (UInt64.le_iff_toNat_le.mpr hle)
  have hparts : (fee - host).toNat + host.toNat = fee.toNat := by omega
  refine ⟨fee - host, ?_, hparts, fun hrate hamount => ?_⟩
  · have hcheck : u64CheckedSub fee host = .ok (fee - host) :=
      u64CheckedSub_eq_ok_iff.mpr (by omega)
    simp only [calculateFlashLoanFees, h, bind_eq_ok_iff, pure_eq_ok_iff]
    exact ⟨(fee, host), rfl, fee - host, hcheck, rfl⟩
  · obtain ⟨part, hpart, hsplit⟩ := calculateFees_split hhost h
      ⟨not_le.mp fun hle => by
        rw [Rate.le_iff, Rate.fromScaledVal_scaledVal, Rate.zero_scaledVal] at hle
        omega, Decimal.lt_iff.mpr hamount⟩
    obtain ⟨-, rfl⟩ := Decimal.tryMulRate_eq_ok_iff.mp hpart
    refine ⟨hsplit.fee_le, hsplit.le_fee, hsplit.host_pos, fun hsixty => ?_⟩
    have := hsplit.host_lt hsixty
    omega

/-- A loan of a million at 0.3 percent, a fifth of it for the host. -/
theorem calculateFlashLoanFees_split_million :
    ∃ origination, plainConfig.fees.calculateFlashLoanFees (.ofNat 1000000) =
        .ok (origination, 600) ∧ origination.toNat + 600 = 3000 := by
  obtain ⟨origination, hsplit, hsum, -⟩ := calculateFlashLoanFees_split plainConfig
    (.ofNat 1000000) 3000 600 (by decide +kernel) (by decide +kernel)
  exact ⟨origination, hsplit, hsum⟩

-- at 75 percent the smallest fee, two tokens, goes to the host
example : ReserveFees.calculateFlashLoanFees ⟨0, 1, 75⟩ (.ofNat 100) = .ok (0, 2) := by
  decide +kernel

end ReserveFees

namespace Solend

/-! ## Limits -/

structure CalculateBorrowResult where
  borrowAmount : Decimal
  receiveAmount : UInt64
  borrowFee : UInt64
  hostFee : UInt64
  deriving DecidableEq, Repr

def Reserve.calculateBorrow (self : Reserve) (amountToBorrow : UInt64)
    (maxBorrowValue remainingReserveBorrow : Decimal) :
    Except LendingError CalculateBorrowResult := do
  let decimals ← pow10 (2 ^ 64) self.liquidity.mintDecimals
  if amountToBorrow.toNat = u64Max then
    let amount ← maxBorrowValue.tryMulU64 decimals
    let amount ← amount.tryDiv self.priceUpperBound
    let amount ← amount.tryDiv self.borrowWeight
    let borrowAmount := min (min amount remainingReserveBorrow)
      (.ofNat self.liquidity.availableAmount.toNat)
    let (borrowFee, hostFee) ← self.config.fees.calculateBorrowFees borrowAmount .inclusive
    let floor ← borrowAmount.tryFloorU64
    let receiveAmount ← u64CheckedSub floor borrowFee
    return { borrowAmount, receiveAmount, borrowFee, hostFee }
  else
    let receiveAmount := amountToBorrow
    let borrowAmount := Decimal.ofNat receiveAmount.toNat
    let (borrowFee, hostFee) ← self.config.fees.calculateBorrowFees borrowAmount .exclusive
    let borrowAmount ← borrowAmount.tryAdd (.ofNat borrowFee.toNat)
    let value ← self.marketValueUpperBound borrowAmount
    let borrowValue ← value.tryMul self.borrowWeight
    refuseIf (maxBorrowValue < borrowValue) .borrowTooLarge
    return { borrowAmount, receiveAmount, borrowFee, hostFee }

def Obligation.maxWithdrawAmount (self : Obligation) (collateral : ObligationCollateral)
    (withdrawReserve : Reserve) : Except LendingError UInt64 := do
  if self.borrows = [] then return collateral.depositedAmount
  else if self.allowedBorrowValue ≤ self.borrowedValueUpperBound then return 0
  else if withdrawReserve.loanToValueRatio = .zero then return collateral.depositedAmount
  else
    let room ← self.allowedBorrowValue.trySub self.borrowedValueUpperBound
    let maxWithdrawValue ← room.tryDivRate withdrawReserve.loanToValueRatio
    let price := withdrawReserve.priceLowerBound
    let decimals ← pow10 (2 ^ 64) withdrawReserve.liquidity.mintDecimals
    let amount ← maxWithdrawValue.tryMulU64 decimals
    let maxWithdrawLiquidityAmount ← amount.tryDiv price
    let exchangeRate ← withdrawReserve.collateralExchangeRate
    let collateralAmount ← exchangeRate.decimalLiquidityToCollateral maxWithdrawLiquidityAmount
    let collateralAmount ← collateralAmount.tryFloorU64
    return min collateralAmount collateral.depositedAmount

/-! ## Within the limits -/

namespace Reserve

/-- What may be borrowed within a value: the tokens that leave the reserve are those
received and the fee, and by the code's own valuation they are within it. -/
structure Borrowed (reserve : Reserve) (amountToBorrow : UInt64)
    (maxBorrowValue remainingReserveBorrow : Decimal) (result : CalculateBorrowResult) : Prop where
  tokens : result.borrowAmount.scaledVal / wad =
    result.receiveAmount.toNat + result.borrowFee.toNat
  hostFee_le : result.hostFee.toNat ≤ result.borrowFee.toNat
  asked : amountToBorrow.toNat ≠ u64Max → result.receiveAmount = amountToBorrow ∧
    result.borrowAmount.scaledVal = wad * (result.receiveAmount.toNat + result.borrowFee.toNat)
  limited : amountToBorrow.toNat = u64Max → result.borrowAmount ≤ remainingReserveBorrow ∧
    result.borrowAmount.scaledVal ≤ wad * reserve.liquidity.availableAmount.toNat
  value_le : ∀ {value weighted : Decimal},
    reserve.marketValueUpperBound result.borrowAmount = .ok value →
      value.tryMul reserve.borrowWeight = .ok weighted → weighted ≤ maxBorrowValue

/-- Everything a value pays for, at a price and a weight. -/
theorem weighted_le {self : Reserve} {price weight amount value weighted : Decimal}
    {quote : Nat} (paid : Nat) (hpaid : paid * price.scaledVal ≤
      quote * 10 ^ self.liquidity.mintDecimals.toNat * wad)
    (hamount : amount.scaledVal * weight.scaledVal ≤ paid * wad)
    (hvalue : self.valueAt price amount = .ok value)
    (hweighted : value.tryMul weight = .ok weighted) :
    weighted.scaledVal ≤ quote := by
  have hmul := valueAt_mul_le hvalue
  obtain ⟨-, rfl⟩ := Decimal.tryMul_eq_ok_iff.mp hweighted
  obtain ⟨d, hd⟩ : ∃ d, 10 ^ self.liquidity.mintDecimals.toNat = d := ⟨_, rfl⟩
  have hdpos : 0 < d := hd ▸ Nat.pow_pos (by decide)
  rw [hd] at hpaid hmul
  dsimp only
  refine Nat.le_of_mul_le_mul_right ?_ (Nat.mul_pos (Nat.mul_pos hdpos wad_pos) wad_pos)
  calc value.scaledVal * weight.scaledVal / wad * (d * wad * wad)
      = value.scaledVal * weight.scaledVal / wad * wad * (d * wad) := by ring
    _ ≤ value.scaledVal * weight.scaledVal * (d * wad) :=
      Nat.mul_le_mul_right _ (Nat.div_mul_le_self _ _)
    _ = value.scaledVal * (d * wad) * weight.scaledVal := by ring
    _ ≤ price.scaledVal * amount.scaledVal * weight.scaledVal := Nat.mul_le_mul_right _ hmul
    _ = price.scaledVal * (amount.scaledVal * weight.scaledVal) := by ring
    _ ≤ price.scaledVal * (paid * wad) := Nat.mul_le_mul_left _ hamount
    _ = paid * price.scaledVal * wad := by ring
    _ ≤ quote * d * wad * wad := Nat.mul_le_mul_right _ hpaid
    _ = quote * (d * wad * wad) := by ring

section Calculated

variable {reserve : Reserve} {amountToBorrow : UInt64}
  {maxBorrowValue remainingReserveBorrow : Decimal} {result : CalculateBorrowResult}

/-- What leaves the reserve, and for as much as possible no more than is there. -/
theorem calculateBorrow_tokens
    (h : reserve.calculateBorrow amountToBorrow maxBorrowValue remainingReserveBorrow =
      .ok result) :
    result.borrowAmount.scaledVal / wad = result.receiveAmount.toNat + result.borrowFee.toNat ∧
      (amountToBorrow.toNat = u64Max →
        result.borrowAmount.scaledVal ≤ wad * reserve.liquidity.availableAmount.toNat) := by
  by_cases hmax : amountToBorrow.toNat = u64Max
  · simp only [calculateBorrow, if_pos hmax, bind_eq_ok_iff, pure_eq_ok_iff,
      Decimal.tryFloorU64_eq_ok_iff, u64CheckedSub_eq_ok_iff] at h
    obtain ⟨_, -, _, -, _, -, _, -, ⟨fee, host⟩, -, floor, hfloor, received, hreceived, rfl⟩ := h
    refine ⟨?_, fun _ => Decimal.le_iff.mp (min_le_right _ _)⟩
    rw [hfloor, hreceived, Nat.add_comm]
  · simp only [calculateBorrow, if_neg hmax, bind_eq_ok_iff, pure_eq_ok_iff,
      Decimal.tryAdd_eq_ok_iff, Decimal.ofNat_scaledVal] at h
    obtain ⟨_, -, ⟨fee, host⟩, -, _, ⟨-, rfl⟩, _, -, _, -, -, -, rfl⟩ := h
    refine ⟨?_, fun heq => absurd heq hmax⟩
    dsimp only
    rw [← Nat.mul_add, Nat.mul_div_cancel_left _ wad_pos]

/-- As much as possible: the least of three amounts, of which the first is paid for. -/
theorem calculateBorrow_most (hconfig : validateReserveConfig reserve.config = .ok ())
    (hmax : amountToBorrow.toNat = u64Max)
    (h : reserve.calculateBorrow amountToBorrow maxBorrowValue remainingReserveBorrow =
      .ok result) :
    reserve.Borrowed amountToBorrow maxBorrowValue remainingReserveBorrow result := by
  have hhost := (validConfig_of_ok hconfig).hostFee_le
  obtain ⟨htokens, hthere⟩ := calculateBorrow_tokens h
  simp only [calculateBorrow, if_pos hmax, bind_eq_ok_iff, pow10, checked_eq_ok_iff,
    pure_eq_ok_iff, Decimal.tryMulU64_eq_ok_iff, Decimal.tryDiv_eq_ok_iff,
    Decimal.tryFloorU64_eq_ok_iff, u64CheckedSub_eq_ok_iff] at h
  obtain ⟨_, ⟨-, rfl⟩, _, ⟨-, rfl⟩, paid, ⟨-, -, hpaid⟩, most, ⟨-, -, hmost⟩, ⟨fee, host⟩, hfees,
    floor, hfloor, received, hreceived, rfl⟩ := h
  refine ⟨htokens, ReserveFees.host_le_fee hhost hfees, fun hne => absurd hmax hne,
    fun _ => ⟨?_, hthere hmax⟩, fun {value weighted} hvalue hweighted => ?_⟩
  · exact (min_le_left _ _).trans (min_le_right _ _)
  · refine Decimal.le_iff.mpr (weighted_le paid.scaledVal ?_ ?_ hvalue hweighted)
    · rw [← hpaid]
      exact Nat.div_mul_le_self _ _
    · have hle : (min (min most remainingReserveBorrow)
          (Decimal.ofNat reserve.liquidity.availableAmount.toNat)).scaledVal ≤ most.scaledVal :=
        Decimal.le_iff.mp ((min_le_left _ _).trans (min_le_left _ _))
      refine (Nat.mul_le_mul_right _ hle).trans ?_
      rw [← hmost]
      exact Nat.div_mul_le_self _ _

/-- An amount, with its fee on top: its value was looked at. -/
theorem calculateBorrow_asked (hconfig : validateReserveConfig reserve.config = .ok ())
    (hmax : amountToBorrow.toNat ≠ u64Max)
    (h : reserve.calculateBorrow amountToBorrow maxBorrowValue remainingReserveBorrow =
      .ok result) :
    reserve.Borrowed amountToBorrow maxBorrowValue remainingReserveBorrow result := by
  have hhost := (validConfig_of_ok hconfig).hostFee_le
  obtain ⟨htokens, -⟩ := calculateBorrow_tokens h
  simp only [calculateBorrow, if_neg hmax, bind_eq_ok_iff, pow10, checked_eq_ok_iff,
    pure_eq_ok_iff, refuseIf_eq_ok_iff, exists_const, Decimal.tryAdd_eq_ok_iff,
    Decimal.ofNat_scaledVal] at h
  obtain ⟨_, ⟨-, rfl⟩, ⟨fee, host⟩, hfees, _, ⟨-, rfl⟩, value, hvalue, weighted, hweighted, hwithin,
    rfl⟩ := h
  refine ⟨htokens, ReserveFees.host_le_fee hhost hfees, fun _ => ⟨rfl, ?_⟩,
    fun heq => absurd heq hmax, fun hvalue' hweighted' => ?_⟩
  · dsimp only
    rw [Nat.mul_add]
  · obtain rfl := Except.ok.inj (hvalue.symm.trans hvalue')
    obtain rfl := Except.ok.inj (hweighted.symm.trans hweighted')
    exact not_lt.mp hwithin

end Calculated

/-- **Borrowing.**  Both ways of asking, for an amount and for as much as possible, stay
within the value, and what leaves the reserve is what is received and the fee. -/
theorem calculateBorrow_bounds (reserve : Reserve) (amountToBorrow : UInt64)
    (maxBorrowValue remainingReserveBorrow : Decimal) (result : CalculateBorrowResult)
    (hconfig : validateReserveConfig reserve.config = .ok ())
    (h : reserve.calculateBorrow amountToBorrow maxBorrowValue remainingReserveBorrow =
      .ok result) :
    reserve.Borrowed amountToBorrow maxBorrowValue remainingReserveBorrow result := by
  by_cases hmax : amountToBorrow.toNat = u64Max
  · exact calculateBorrow_most hconfig hmax h
  · exact calculateBorrow_asked hconfig hmax h

/-- As much as 300 dollars allow, of a token of six decimals. -/
theorem calculateBorrow_bounds_most :
    let reserve := plainReserve 1000000000 0 1000000000
    let result : CalculateBorrowResult := ⟨.ofNat 300000000, 299999970, 30, 6⟩
    reserve.calculateBorrow (UInt64.ofNat u64Max) (.ofNat 300) (.ofNat 1000000000) = .ok result ∧
      reserve.Borrowed (UInt64.ofNat u64Max) (.ofNat 300) (.ofNat 1000000000) result := by
  intro reserve result
  have hresult : reserve.calculateBorrow (UInt64.ofNat u64Max) (.ofNat 300) (.ofNat 1000000000) =
      .ok result := by decide +kernel
  exact ⟨hresult, calculateBorrow_bounds reserve _ _ _ result (by decide +kernel) hresult⟩

/-- What is there can be borrowed. -/
theorem exists_borrow {liquidity : ReserveLiquidity} {amount : Decimal}
    (hborrowed : liquidity.borrowedAmountWads.scaledVal < u128Bound)
    (havailable : amount.scaledVal / wad ≤ liquidity.availableAmount.toNat) :
    ∃ after, (ReserveLiquidity.borrow amount).exec liquidity = (.ok (), after) ∧
      after.availableAmount.toNat + amount.scaledVal / wad = liquidity.availableAmount.toNat ∧
        after.borrowedAmountWads.scaledVal =
          liquidity.borrowedAmountWads.scaledVal + amount.scaledVal := by
  obtain ⟨floor, hfloor⟩ : ∃ floor : UInt64, amount.scaledVal / wad = floor.toNat :=
    ⟨UInt64.ofNat _, (UInt64.toNat_ofNat_of_lt'
      (Nat.lt_of_le_of_lt havailable (UInt64.toNat_lt _))).symm⟩
  rw [hfloor] at havailable
  have hsub := UInt64.toNat_sub_of_le liquidity.availableAmount floor
    (UInt64.le_iff_toNat_le.mpr havailable)
  have hfits := borrowed_fits hborrowed hfloor
  refine ⟨{ liquidity with
    availableAmount := liquidity.availableAmount - floor
    borrowedAmountWads := ⟨liquidity.borrowedAmountWads.scaledVal + amount.scaledVal⟩ }, ?_, ?_, rfl⟩
  · simp only [ReserveLiquidity.borrow, exec_get_bind, exec_modify_bind, exec_lift_bind_eq_ok_iff,
      exec_modify, Prod.mk.injEq, Decimal.tryFloorU64_eq_ok_iff, refuseIf_eq_ok_iff,
      u64CheckedSub_eq_ok_iff, Decimal.tryAdd_eq_ok_iff]
    refine ⟨floor, hfloor, (), ?_, _, ?_, _, ⟨hfits, rfl⟩, trivial, rfl⟩
    · exact UInt64.not_lt.mpr (UInt64.le_iff_toNat_le.mpr havailable)
    · omega
  · dsimp only
    omega

/-- **What was calculated can be paid.**  A loan of as much as possible, or of an amount that
is there with its fee, is accepted by the reserve, whose available tokens fall by exactly
what is received and the fee. -/
theorem calculateBorrow_paid (reserve : Reserve) (amountToBorrow : UInt64)
    (maxBorrowValue remainingReserveBorrow : Decimal) (result : CalculateBorrowResult)
    (hborrowed : reserve.liquidity.borrowedAmountWads.scaledVal < u128Bound)
    (h : reserve.calculateBorrow amountToBorrow maxBorrowValue remainingReserveBorrow = .ok result)
    (hthere : amountToBorrow.toNat ≠ u64Max →
      result.receiveAmount.toNat + result.borrowFee.toNat ≤
        reserve.liquidity.availableAmount.toNat) :
    ∃ after, (onLiquidity (ReserveLiquidity.borrow result.borrowAmount)).exec reserve =
        (.ok (), after) ∧
      after.liquidity.availableAmount.toNat + result.receiveAmount.toNat +
        result.borrowFee.toNat = reserve.liquidity.availableAmount.toNat ∧
      after.liquidity.borrowedAmountWads.scaledVal =
        reserve.liquidity.borrowedAmountWads.scaledVal + result.borrowAmount.scaledVal := by
  obtain ⟨hfloor, havailable⟩ : result.borrowAmount.scaledVal / wad =
      result.receiveAmount.toNat + result.borrowFee.toNat ∧
        result.borrowAmount.scaledVal / wad ≤ reserve.liquidity.availableAmount.toNat := by
    obtain ⟨htokens, hmost⟩ := calculateBorrow_tokens h
    refine ⟨htokens, ?_⟩
    by_cases hmax : amountToBorrow.toNat = u64Max
    · exact Nat.div_le_of_le_mul (hmost hmax)
    · exact htokens.trans_le (hthere hmax)
  obtain ⟨liquidity, hexec, hleft, hmore⟩ := exists_borrow hborrowed havailable
  refine ⟨_, exec_zoom_eq_iff.mpr ⟨_, hexec, rfl⟩, ?_, hmore⟩
  dsimp only
  omega

/-- 250 tokens and their fee, out of a thousand. -/
theorem calculateBorrow_paid_part :
    ∃ after, (onLiquidity (ReserveLiquidity.borrow (.ofNat 252))).exec (plainReserve 1000 0 1000) =
        (.ok (), after) ∧ after.liquidity.availableAmount.toNat + 250 + 2 = 1000 := by
  obtain ⟨after, hexec, hsum, -⟩ := calculateBorrow_paid (plainReserve 1000 0 1000) 250 (.ofNat 300)
    .zero ⟨.ofNat 252, 250, 2, 1⟩ (by decide +kernel) (by decide +kernel) (by decide +kernel)
  exact ⟨after, hexec, hsum⟩

/-! ## Taking collateral back -/

/-- What collateral counts for in `allowed_borrow_value`: the tokens it redeems for, at the
lower price, times the loan-to-value ratio. -/
def borrowPower (self : Reserve) (collateralAmount : UInt64) : Except LendingError Decimal := do
  let exchangeRate ← self.collateralExchangeRate
  let liquidity ← exchangeRate.decimalCollateralToLiquidity (.ofNat collateralAmount.toNat)
  let value ← self.marketValueLowerBound liquidity
  value.tryMulRate self.loanToValueRatio

theorem borrowPower_of_ok {self : Reserve} {amount : UInt64} {power : Decimal}
    (h : self.borrowPower amount = .ok power) :
    ∃ rate liquidity value, self.collateralExchangeRate = .ok rate ∧
      liquidity.scaledVal * rate.rate.scaledVal ≤ wad * amount.toNat * wad ∧
        rate.rate.scaledVal ≠ 0 ∧ self.marketValueLowerBound liquidity = .ok value ∧
          power.scaledVal * wad ≤ value.scaledVal * self.loanToValueRatio.scaledVal := by
  simp only [borrowPower, CollateralExchangeRate.decimalCollateralToLiquidity, bind_eq_ok_iff,
    Decimal.tryDivRate_eq_ok_iff, Decimal.tryMulRate_eq_ok_iff, Decimal.ofNat_scaledVal] at h
  obtain ⟨rate, hrate, _, ⟨-, hpos, rfl⟩, value, hvalue, -, rfl⟩ := h
  exact ⟨rate, _, value, hrate, Nat.div_mul_le_self _ _, hpos, hvalue, Nat.div_mul_le_self _ _⟩

/-- Collateral that redeems for no more than `tokens`, when these are worth no more than
`most` and that much counts for `room`. -/
theorem borrowPower_le {self : Reserve} {amount : UInt64} {power : Decimal}
    {rate : CollateralExchangeRate} {tokens most room : Nat}
    (h : self.borrowPower amount = .ok power) (hrate : self.collateralExchangeRate = .ok rate)
    (htokens : wad * amount.toNat * wad ≤ tokens * rate.rate.scaledVal)
    (hmost : tokens * self.priceLowerBound.scaledVal ≤
      most * (10 ^ self.liquidity.mintDecimals.toNat * wad))
    (hroom : most * self.loanToValueRatio.scaledVal ≤ room * wad) : power.scaledVal ≤ room := by
  obtain ⟨rate', liquidity, value, hrate', hliquidity, hpos, hvalue, hle⟩ := borrowPower_of_ok h
  obtain rfl := Except.ok.inj (hrate.symm.trans hrate')
  have hwithin : liquidity.scaledVal ≤ tokens :=
    Nat.le_of_mul_le_mul_right (hliquidity.trans htokens) (Nat.pos_of_ne_zero hpos)
  have hvalueLe : value.scaledVal ≤ most := by
    refine valueAt_le hvalue ?_
    calc self.priceLowerBound.scaledVal * liquidity.scaledVal
        ≤ self.priceLowerBound.scaledVal * tokens := Nat.mul_le_mul_left _ hwithin
      _ = tokens * self.priceLowerBound.scaledVal := mul_comm _ _
      _ ≤ most * (10 ^ self.liquidity.mintDecimals.toNat * wad) := hmost
  refine Nat.le_of_mul_le_mul_right ?_ wad_pos
  calc power.scaledVal * wad ≤ value.scaledVal * self.loanToValueRatio.scaledVal := hle
    _ ≤ most * self.loanToValueRatio.scaledVal := Nat.mul_le_mul_right _ hvalueLe
    _ ≤ room * wad := hroom

/-- Nothing counts for nothing. -/
theorem borrowPower_zero {self : Reserve} {amount : UInt64} {power : Decimal}
    (h : self.borrowPower amount = .ok power) (hzero : amount.toNat = 0) :
    power.scaledVal = 0 := by
  obtain ⟨rate, _, _, hrate, -⟩ := borrowPower_of_ok h
  have hnone : wad * amount.toNat * wad ≤ 0 * rate.rate.scaledVal := by
    rw [hzero, mul_zero, zero_mul, zero_mul]
  exact Nat.le_zero.mp (borrowPower_le h hrate hnone (by rw [zero_mul]; exact Nat.zero_le _)
    (by rw [zero_mul]; exact Nat.zero_le _))

end Reserve

/-- **Withdrawing.**  No collateral up to `max_withdraw_amount` counts for more than what
the obligation may still borrow, whatever else it has borrowed; where nothing more may be
borrowed, none can be taken. -/
theorem Obligation.maxWithdrawAmount_safe (obligation : Obligation)
    (collateral : ObligationCollateral) (reserve : Reserve) (limit amount : UInt64)
    (power : Decimal) (hborrows : obligation.borrows ≠ [])
    (h : obligation.maxWithdrawAmount collateral reserve = .ok limit) (hamount : amount ≤ limit)
    (hpower : reserve.borrowPower amount = .ok power) :
    limit ≤ collateral.depositedAmount ∧ power.scaledVal ≤
      obligation.allowedBorrowValue.scaledVal - obligation.borrowedValueUpperBound.scaledVal := by
  rw [UInt64.le_iff_toNat_le] at hamount
  rw [maxWithdrawAmount, if_neg hborrows] at h
  by_cases hfull : obligation.allowedBorrowValue ≤ obligation.borrowedValueUpperBound
  · rw [if_pos hfull] at h
    obtain rfl := Except.ok.inj h
    refine ⟨UInt64.le_iff_toNat_le.mpr (Nat.zero_le _), ?_⟩
    rw [Reserve.borrowPower_zero hpower (Nat.le_zero.mp hamount)]
    exact Nat.zero_le _
  rw [if_neg hfull] at h
  by_cases hltv : reserve.loanToValueRatio = .zero
  · rw [if_pos hltv] at h
    obtain rfl := Except.ok.inj h
    obtain ⟨_, _, value, -, -, -, -, hle⟩ := Reserve.borrowPower_of_ok hpower
    rw [hltv, Rate.zero_scaledVal, mul_zero, Nat.le_zero, Nat.mul_eq_zero] at hle
    have := wad_pos
    exact ⟨UInt64.le_refl _, by omega⟩
  rw [if_neg hltv] at h
  simp only [bind_eq_ok_iff, pure_eq_ok_iff, pow10, checked_eq_ok_iff, Decimal.trySub_eq_ok_iff,
    Decimal.tryDivRate_eq_ok_iff, Decimal.tryMulU64_eq_ok_iff, Decimal.tryDiv_eq_ok_iff,
    Decimal.tryFloorU64_eq_ok_iff, CollateralExchangeRate.decimalLiquidityToCollateral,
    Decimal.tryMulRate_eq_ok_iff] at h
  obtain ⟨room, ⟨-, hroom⟩, most, ⟨-, -, hmost⟩, d, ⟨-, hd⟩, _, ⟨-, rfl⟩, tokens, ⟨-, -, htokens⟩,
    rate, hrate, share, ⟨-, hshare⟩, floor, hfloor, rfl⟩ := h
  have hmin := toNat_min floor collateral.depositedAmount
  refine ⟨UInt64.le_iff_toNat_le.mpr (by omega), ?_⟩
  have hredeemed : wad * amount.toNat * wad ≤ tokens.scaledVal * rate.rate.scaledVal :=
    calc wad * amount.toNat * wad ≤ wad * floor.toNat * wad :=
        Nat.mul_le_mul_right _ (Nat.mul_le_mul_left _ (by omega))
      _ ≤ share.scaledVal * wad := Nat.mul_le_mul_right _ (hfloor ▸ Nat.mul_div_le _ _)
      _ ≤ tokens.scaledVal * rate.rate.scaledVal := by
        rw [← hshare]
        exact Nat.div_mul_le_self _ _
  have hworth : tokens.scaledVal * reserve.priceLowerBound.scaledVal ≤
      most.scaledVal * (10 ^ reserve.liquidity.mintDecimals.toNat * wad) := by
    rw [← htokens, ← hd, ← mul_assoc]
    exact Nat.div_mul_le_self _ _
  have hcounted : most.scaledVal * reserve.loanToValueRatio.scaledVal ≤ room.scaledVal * wad := by
    rw [← hmost]
    exact Nat.div_mul_le_self _ _
  rw [← hroom] at hcounted
  exact Reserve.borrowPower_le hpower hrate hredeemed hworth hcounted

/-- 400 of a deposit of a thousand still have room: at a ratio of one half, 200 tokens'
worth of borrowing. -/
theorem Obligation.maxWithdrawAmount_safe_half :
    let collateral : ObligationCollateral := ⟨Pubkey.default, 1000000000, .ofNat 1000, .zero⟩
    let obligation := { Obligation.new ⟨5, Pubkey.default, Pubkey.default, [collateral],
      [.new Pubkey.default .one]⟩ with
        allowedBorrowValue := .ofNat 500, borrowedValueUpperBound := .ofNat 300 }
    let reserve := plainReserve 1000000000 0 1000000000
    obligation.maxWithdrawAmount collateral reserve = .ok 400000000 ∧
      ∃ power, reserve.borrowPower 400000000 = .ok power ∧ power.scaledVal ≤ wad * 200 := by
  intro collateral obligation reserve
  have hlimit : obligation.maxWithdrawAmount collateral reserve = .ok 400000000 := by
    decide +kernel
  have hpower : reserve.borrowPower 400000000 = .ok ⟨wad * 200⟩ := by decide +kernel
  have hsafe := Obligation.maxWithdrawAmount_safe obligation collateral reserve 400000000 400000000
    ⟨wad * 200⟩ (by simp [obligation, Obligation.new]) hlimit (UInt64.le_refl _) hpower
  have hroom : obligation.allowedBorrowValue.scaledVal -
      obligation.borrowedValueUpperBound.scaledVal = wad * 200 := by decide +kernel
  rw [hroom] at hsafe
  exact ⟨hlimit, _, hpower, hsafe.2⟩

end Solend

end Gyrfalcon
