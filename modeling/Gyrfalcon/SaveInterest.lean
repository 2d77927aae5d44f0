import Gyrfalcon.Lib.Fallible
import Gyrfalcon.SaveRateLimiter

/-!
# Interest on a Solend reserve (`patches/solend-sdk/src/state/{reserve,last_update}.rs`)

The borrow rate is a curve of three ramps over the utilization, fixed by the
configuration that `validate_reserve_config` accepts (`currentBorrowRate_mono`).
Accrual compounds it over the elapsed slots: the debt grows at least by simple
and at most by exact compound interest, and the depositors never pay for it
(`accrueInterest_bounds`).
-/

namespace Gyrfalcon

open FixedPoint Fallible

namespace Solend

def slotsPerYear : Nat := 63072000

def staleAfterSlotsElapsed : UInt64 := 1

/-- `u8::checked_sub`. -/
def u8CheckedSub (a b : UInt8) : Except LendingError UInt8 :=
  if b ≤ a then .ok (a - b) else .error .mathOverflow

@[simp] theorem u8CheckedSub_eq_ok_iff {a b c : UInt8} :
    u8CheckedSub a b = .ok c ↔ a.toNat = b.toNat + c.toNat := by
  unfold u8CheckedSub
  constructor
  · intro h
    split at h
    · next hle =>
      obtain rfl := Except.ok.inj h
      rw [UInt8.toNat_sub_of_le a b hle]
      have := UInt8.le_iff_toNat_le.mp hle
      omega
    · cases h
  · intro h
    have hle : b ≤ a := UInt8.le_iff_toNat_le.mpr (by omega)
    rw [if_pos hle, Except.ok.injEq, ← UInt8.toNat_inj, UInt8.toNat_sub_of_le a b hle]
    omega

/-! ## New reserves -/

namespace LastUpdate

def new (slot : UInt64) : LastUpdate := { slot, stale := true }

def slotsElapsed (self : LastUpdate) (slot : UInt64) : Except LendingError UInt64 :=
  u64CheckedSub slot self.slot

def updateSlot (_ : LastUpdate) (slot : UInt64) : LastUpdate := { slot, stale := false }

def markStale (self : LastUpdate) : LastUpdate := { self with stale := true }

def isStale (self : LastUpdate) (slot : UInt64) : Except LendingError Bool := do
  if self.stale then return true
  let slotsElapsed ← self.slotsElapsed slot
  return decide (staleAfterSlotsElapsed ≤ slotsElapsed)

end LastUpdate

structure NewReserveLiquidityParams where
  mintPubkey : Pubkey
  mintDecimals : UInt8
  supplyPubkey : Pubkey
  pythOraclePubkey : Pubkey
  switchboardOraclePubkey : Pubkey
  marketPrice : Decimal
  smoothedMarketPrice : Decimal

def ReserveLiquidity.new (params : NewReserveLiquidityParams) : ReserveLiquidity where
  mintPubkey := params.mintPubkey
  mintDecimals := params.mintDecimals
  supplyPubkey := params.supplyPubkey
  pythOraclePubkey := params.pythOraclePubkey
  switchboardOraclePubkey := params.switchboardOraclePubkey
  availableAmount := 0
  borrowedAmountWads := .zero
  cumulativeBorrowRateWads := .one
  accumulatedProtocolFeesWads := .zero
  marketPrice := params.marketPrice
  smoothedMarketPrice := params.smoothedMarketPrice
  extraMarketPrice := none

structure NewReserveCollateralParams where
  mintPubkey : Pubkey
  supplyPubkey : Pubkey

def ReserveCollateral.new (params : NewReserveCollateralParams) : ReserveCollateral where
  mintPubkey := params.mintPubkey
  mintTotalSupply := 0
  supplyPubkey := params.supplyPubkey

structure InitReserveParams where
  currentSlot : UInt64
  lendingMarket : Pubkey
  liquidity : ReserveLiquidity
  collateral : ReserveCollateral
  config : ReserveConfig
  rateLimiterConfig : RateLimiterConfig

/-- `new`, and `init`, which sets every field. -/
def Reserve.new (params : InitReserveParams) : Reserve where
  version := programVersion
  lastUpdate := .new params.currentSlot
  lendingMarket := params.lendingMarket
  liquidity := params.liquidity
  collateral := params.collateral
  config := params.config
  rateLimiter := .new params.rateLimiterConfig params.currentSlot
  attributedBorrowValue := .zero

/-- A configuration for closed examples. -/
def plainConfig : ReserveConfig where
  optimalUtilizationRate := 80
  maxUtilizationRate := 95
  loanToValueRatio := 50
  liquidationBonus := 5
  maxLiquidationBonus := 10
  liquidationThreshold := 55
  maxLiquidationThreshold := 65
  minBorrowRate := 0
  optimalBorrowRate := 4
  maxBorrowRate := 30
  superMaxBorrowRate := 250
  fees := ⟨100000000000, 3000000000000000, 20⟩
  depositLimit := 1000000
  borrowLimit := 1000000
  feeReceiver := Pubkey.default
  protocolLiquidationFee := 10
  protocolTakeRate := 10
  addedBorrowWeightBps := 0
  reserveType := .regular
  scaledPriceOffsetBps := 0
  extraOraclePubkey := none
  attributedBorrowLimitOpen := 1000
  attributedBorrowLimitClose := 2000

/-- A reserve of slot 0 with this much available and lent, minted in the collateral's supply. -/
def plainReserve (available : UInt64) (borrowed : Nat) (minted : UInt64) : Reserve :=
  let liquidity : ReserveLiquidity := .new ⟨Pubkey.default, 6, Pubkey.default, Pubkey.default,
    Pubkey.default, .one, .one⟩
  .new
    { currentSlot := 0
      lendingMarket := Pubkey.default
      liquidity := { liquidity with
        availableAmount := available, borrowedAmountWads := .ofNat borrowed }
      collateral := ⟨Pubkey.default, minted, Pubkey.default⟩
      config := plainConfig
      rateLimiterConfig := ⟨10, 100⟩ }

/-! ## The configuration -/

def maxBonusPct : UInt8 := 25

def maxScaledPriceOffsetBps : Int64 := 5000

def minScaledPriceOffsetBps : Int64 := -2000

def validateReserveConfig (config : ReserveConfig) : Except LendingError Unit := do
  refuseIf (100 < config.optimalUtilizationRate) .invalidConfig
  refuseIf (config.maxUtilizationRate < config.optimalUtilizationRate ∨
    100 < config.maxUtilizationRate) .invalidConfig
  refuseIf (100 ≤ config.loanToValueRatio) .invalidConfig
  refuseIf (100 < config.liquidationBonus) .invalidConfig
  refuseIf (config.maxLiquidationBonus < config.liquidationBonus ∨
    100 < config.maxLiquidationBonus) .invalidConfig
  refuseIf (config.liquidationThreshold < config.loanToValueRatio ∨
    100 < config.liquidationThreshold) .invalidConfig
  refuseIf (config.maxLiquidationThreshold < config.liquidationThreshold ∨
    100 < config.maxLiquidationThreshold) .invalidConfig
  refuseIf (config.optimalBorrowRate < config.minBorrowRate) .invalidConfig
  refuseIf (config.maxBorrowRate < config.optimalBorrowRate) .invalidConfig
  refuseIf (config.superMaxBorrowRate < config.maxBorrowRate.toUInt64) .invalidConfig
  refuseIf (wad ≤ config.fees.borrowFeeWad.toNat) .invalidConfig
  refuseIf (100 < config.fees.hostFeePercentage) .invalidConfig
  refuseIf (maxProtocolLiquidationFeeDecaBps < config.protocolLiquidationFee) .invalidConfig
  refuseIf (maxBonusPct.toNat * 100 <
    config.maxLiquidationBonus.toNat * 100 + config.protocolLiquidationFee.toNat * 10)
    .invalidConfig
  refuseIf (100 < config.protocolTakeRate) .invalidConfig
  refuseIf (config.reserveType = .isolated ∧
    ¬ (config.loanToValueRatio = 0 ∧ config.liquidationThreshold = 0)) .invalidConfig
  refuseIf (config.scaledPriceOffsetBps < minScaledPriceOffsetBps ∨
    maxScaledPriceOffsetBps < config.scaledPriceOffsetBps) .invalidConfig
  refuseIf (config.attributedBorrowLimitClose < config.attributedBorrowLimitOpen) .invalidConfig

/-- What the rest relies on in an accepted configuration. -/
structure ValidConfig (config : ReserveConfig) : Prop where
  optimal_le_max : config.optimalUtilizationRate.toNat ≤ config.maxUtilizationRate.toNat
  maxUtilization_le : config.maxUtilizationRate.toNat ≤ 100
  bonus_le_max : config.liquidationBonus.toNat ≤ config.maxLiquidationBonus.toNat
  bonus_and_fee_le : config.maxLiquidationBonus.toNat * 100 +
    config.protocolLiquidationFee.toNat * 10 ≤ 2500
  min_le_optimal : config.minBorrowRate.toNat ≤ config.optimalBorrowRate.toNat
  optimal_le_maxRate : config.optimalBorrowRate.toNat ≤ config.maxBorrowRate.toNat
  maxRate_le_super : config.maxBorrowRate.toNat ≤ config.superMaxBorrowRate.toNat
  borrowFee_lt : config.fees.borrowFeeWad.toNat < wad
  hostFee_le : config.fees.hostFeePercentage.toNat ≤ 100
  takeRate_le : config.protocolTakeRate.toNat ≤ 100
  threshold_le_max : config.liquidationThreshold.toNat ≤ config.maxLiquidationThreshold.toNat

variable {config : ReserveConfig}

theorem validConfig_of_ok (h : validateReserveConfig config = .ok ()) : ValidConfig config := by
  simp only [validateReserveConfig, bind_eq_ok_iff, refuseIf_eq_ok_iff, exists_const, not_or,
    UInt8.not_lt, UInt8.not_le, UInt64.not_lt, Nat.not_lt, Nat.not_le] at h
  obtain ⟨-, hmax, -, -, hbonus, -, hthreshold, hmin, hopt, hsuper, hfee, hhost, -, htotal,
    htake, -⟩ := h
  constructor
  · exact UInt8.le_iff_toNat_le.mp hmax.1
  · exact UInt8.le_iff_toNat_le.mp hmax.2
  · exact UInt8.le_iff_toNat_le.mp hbonus.1
  · exact htotal
  · exact UInt8.le_iff_toNat_le.mp hmin
  · exact UInt8.le_iff_toNat_le.mp hopt
  · simpa using UInt64.le_iff_toNat_le.mp hsuper
  · exact hfee
  · exact UInt8.le_iff_toNat_le.mp hhost
  · exact UInt8.le_iff_toNat_le.mp htake
  · exact UInt8.le_iff_toNat_le.mp hthreshold.1

theorem fee_le_of_ok (h : validateReserveConfig config = .ok ()) :
    config.protocolLiquidationFee ≤ maxProtocolLiquidationFeeDecaBps := by
  simp only [validateReserveConfig, bind_eq_ok_iff, refuseIf_eq_ok_iff, exists_const] at h
  obtain ⟨-, -, -, -, -, -, -, -, -, -, -, -, hfee, -⟩ := h
  exact UInt8.not_lt.mp hfee

/-! ## Supply and utilization -/

namespace ReserveLiquidity

def totalSupply (self : ReserveLiquidity) : Except LendingError Decimal := do
  let total ← (Decimal.ofNat self.availableAmount.toNat).tryAdd self.borrowedAmountWads
  total.trySub self.accumulatedProtocolFeesWads

def utilizationRate (self : ReserveLiquidity) : Except LendingError Rate := do
  let totalSupply ← self.totalSupply
  if totalSupply = .zero ∨ self.borrowedAmountWads = .zero then return .zero
  let denominator ← self.borrowedAmountWads.tryAdd (.ofNat self.availableAmount.toNat)
  let ratio ← self.borrowedAmountWads.tryDiv denominator
  ratio.tryIntoRate

variable {self : ReserveLiquidity}

@[simp] theorem totalSupply_eq_ok_iff {total : Decimal} :
    self.totalSupply = .ok total ↔
      wad * self.availableAmount.toNat + self.borrowedAmountWads.scaledVal < u192Bound ∧
        wad * self.availableAmount.toNat + self.borrowedAmountWads.scaledVal =
          self.accumulatedProtocolFeesWads.scaledVal + total.scaledVal := by
  simp only [totalSupply, bind_eq_ok_iff, Decimal.tryAdd_eq_ok_iff, Decimal.trySub_eq_ok_iff,
    Decimal.ofNat_scaledVal]
  constructor
  · rintro ⟨_, ⟨hfits, rfl⟩, hle, rfl⟩
    dsimp only at hle ⊢
    exact ⟨hfits, by omega⟩
  · rintro ⟨hfits, hsum⟩
    exact ⟨_, ⟨hfits, rfl⟩, by dsimp only; omega, Decimal.ext (by dsimp only; omega)⟩

/-- A utilization is at most one. -/
theorem utilizationRate_le {rate : Rate} (h : self.utilizationRate = .ok rate) :
    rate.scaledVal ≤ wad := by
  simp only [utilizationRate, bind_eq_ok_iff] at h
  obtain ⟨total, -, h⟩ := h
  split at h
  · obtain rfl := pure_eq_ok_iff.mp h
    exact Nat.zero_le _
  · simp only [bind_eq_ok_iff, Decimal.tryAdd_eq_ok_iff, Decimal.tryDiv_eq_ok_iff,
      Decimal.tryIntoRate_eq_ok_iff] at h
    obtain ⟨_, ⟨-, rfl⟩, _, ⟨-, -, rfl⟩, hrate⟩ := h
    rw [← hrate]
    refine Nat.div_le_of_le_mul ?_
    dsimp only
    exact Nat.mul_le_mul_right wad (Nat.le_add_right _ _)

/-- A utilization is computed wherever the debt can be packed and the fees are covered. -/
theorem exists_utilizationRate (hborrowed : self.borrowedAmountWads.scaledVal < u128Bound)
    (hfees : self.accumulatedProtocolFeesWads.scaledVal ≤
      wad * self.availableAmount.toNat + self.borrowedAmountWads.scaledVal) :
    ∃ rate, self.utilizationRate = .ok rate := by
  have havailable := self.availableAmount.toNat_lt
  have hfits : wad * self.availableAmount.toNat + self.borrowedAmountWads.scaledVal <
      u192Bound := by
    unfold wad u192Bound
    unfold u128Bound at hborrowed
    omega
  obtain ⟨total, htotal⟩ : ∃ total, self.totalSupply = .ok total :=
    ⟨⟨wad * self.availableAmount.toNat + self.borrowedAmountWads.scaledVal -
        self.accumulatedProtocolFeesWads.scaledVal⟩,
      totalSupply_eq_ok_iff.mpr ⟨hfits, (Nat.add_sub_of_le hfees).symm⟩⟩
  simp only [utilizationRate, bind_eq_ok_iff, htotal, Except.ok.injEq, exists_eq_left']
  split
  · exact ⟨.zero, rfl⟩
  · next hzero =>
    have hpos : self.borrowedAmountWads.scaledVal ≠ 0 := fun h =>
      hzero (Or.inr (Decimal.ext h))
    have hle : self.borrowedAmountWads.scaledVal * wad /
        (self.borrowedAmountWads.scaledVal + wad * self.availableAmount.toNat) ≤ wad :=
      Nat.div_le_of_le_mul (Nat.mul_le_mul_right wad (Nat.le_add_right _ _))
    have hrate : self.borrowedAmountWads.scaledVal * wad /
        (self.borrowedAmountWads.scaledVal + wad * self.availableAmount.toNat) < u128Bound :=
      Nat.lt_of_le_of_lt hle (by decide)
    refine ⟨⟨_, hrate⟩, ?_⟩
    simp only [bind_eq_ok_iff, Decimal.tryAdd_eq_ok_iff, Decimal.tryDiv_eq_ok_iff,
      Decimal.tryIntoRate_eq_ok_iff, Decimal.ofNat_scaledVal]
    refine ⟨_, ⟨by omega, rfl⟩, _, ⟨?_, by dsimp only; omega, rfl⟩, rfl⟩
    calc self.borrowedAmountWads.scaledVal * wad < u128Bound * wad :=
          Nat.mul_lt_mul_of_pos_right hborrowed wad_pos
      _ < u192Bound := by decide

end ReserveLiquidity

/-! ## The borrow rate -/

/-- `current_borrow_rate` at a given utilization. -/
def borrowRateAt (config : ReserveConfig) (utilizationRate : Rate) :
    Except LendingError Rate := do
  let optimalUtilizationRate := Rate.fromPercent config.optimalUtilizationRate
  let maxUtilizationRate := Rate.fromPercent config.maxUtilizationRate
  if utilizationRate ≤ optimalUtilizationRate then
    let minRate := Rate.fromPercent config.minBorrowRate
    if optimalUtilizationRate = .zero then return minRate
    let normalizedRate ← utilizationRate.tryDiv optimalUtilizationRate
    let range ← u8CheckedSub config.optimalBorrowRate config.minBorrowRate
    let rise ← normalizedRate.tryMul (Rate.fromPercent range)
    rise.tryAdd minRate
  else if utilizationRate ≤ maxUtilizationRate then
    let excess ← utilizationRate.trySub optimalUtilizationRate
    let width ← maxUtilizationRate.trySub optimalUtilizationRate
    let weight ← excess.tryDiv width
    let optimalBorrowRate := Rate.fromPercent config.optimalBorrowRate
    let maxBorrowRate := Rate.fromPercent config.maxBorrowRate
    let rateRange ← maxBorrowRate.trySub optimalBorrowRate
    let rise ← weight.tryMul rateRange
    rise.tryAdd optimalBorrowRate
  else
    let excess ← utilizationRate.trySub maxUtilizationRate
    let left ← u8CheckedSub 100 config.maxUtilizationRate
    let weight ← excess.tryDiv (Rate.fromPercent left)
    let maxBorrowRate := Rate.fromPercent config.maxBorrowRate
    let superMaxBorrowRate := Rate.fromPercentU64 config.superMaxBorrowRate
    let rateRange ← superMaxBorrowRate.trySub maxBorrowRate
    let rise ← (Decimal.ofRate weight).tryMul (.ofRate rateRange)
    let sum ← rise.tryAdd (.ofRate maxBorrowRate)
    sum.tryIntoRate

def Reserve.currentBorrowRate (self : Reserve) : Except LendingError Rate := do
  let utilizationRate ← self.liquidity.utilizationRate
  borrowRateAt self.config utilizationRate

/-- A percentage, scaled. -/
def scaled (percent : Nat) : Nat := percent * percentScaler

/-- The three ramps. -/
def rateCurve (config : ReserveConfig) (utilization : Nat) : Nat :=
  let optimal := scaled config.optimalUtilizationRate.toNat
  let kink := scaled config.maxUtilizationRate.toNat
  let minRate := scaled config.minBorrowRate.toNat
  let optimalRate := scaled config.optimalBorrowRate.toNat
  let maxRate := scaled config.maxBorrowRate.toNat
  let superMaxRate := scaled config.superMaxBorrowRate.toNat
  if utilization ≤ optimal then
    ramp wad utilization optimal (optimalRate - minRate) + minRate
  else if utilization ≤ kink then
    ramp wad (utilization - optimal) (kink - optimal) (maxRate - optimalRate) + optimalRate
  else
    ramp wad (utilization - kink) (wad - kink) (superMaxRate - maxRate) + maxRate

theorem scaled_mono {a b : Nat} (h : a ≤ b) : scaled a ≤ scaled b := Nat.mul_le_mul_right _ h

section Curve

variable (h : ValidConfig config) {u v : Nat}

include h

/-- Each ramp stays between its ends. -/
theorem rateCurve_low (hu : u ≤ scaled config.optimalUtilizationRate.toNat) :
    scaled config.minBorrowRate.toNat ≤ rateCurve config u ∧
      rateCurve config u ≤ scaled config.optimalBorrowRate.toNat := by
  have hrates := scaled_mono h.min_le_optimal
  have hramp := ramp_le wad
    (scaled config.optimalBorrowRate.toNat - scaled config.minBorrowRate.toNat) hu
  rw [rateCurve, if_pos hu]
  omega

theorem rateCurve_middle (hu : ¬ u ≤ scaled config.optimalUtilizationRate.toNat)
    (hv : u ≤ scaled config.maxUtilizationRate.toNat) :
    scaled config.optimalBorrowRate.toNat ≤ rateCurve config u ∧
      rateCurve config u ≤ scaled config.maxBorrowRate.toNat := by
  have hrates := scaled_mono h.optimal_le_maxRate
  have hramp := ramp_le wad
    (scaled config.maxBorrowRate.toNat - scaled config.optimalBorrowRate.toNat)
    (Nat.sub_le_sub_right hv (scaled config.optimalUtilizationRate.toNat))
  rw [rateCurve, if_neg hu, if_pos hv]
  omega

theorem rateCurve_high (hu : ¬ u ≤ scaled config.maxUtilizationRate.toNat) (hle : u ≤ wad) :
    scaled config.maxBorrowRate.toNat ≤ rateCurve config u ∧
      rateCurve config u ≤ scaled config.superMaxBorrowRate.toNat := by
  have hrates := scaled_mono h.maxRate_le_super
  have hkinks := scaled_mono h.optimal_le_max
  have hramp := ramp_le wad
    (scaled config.superMaxBorrowRate.toNat - scaled config.maxBorrowRate.toNat)
    (Nat.sub_le_sub_right hle (scaled config.maxUtilizationRate.toNat))
  rw [rateCurve, if_neg (by omega), if_neg hu]
  omega

theorem rateCurve_bounds (hle : u ≤ wad) :
    scaled config.minBorrowRate.toNat ≤ rateCurve config u ∧
      rateCurve config u ≤ scaled config.superMaxBorrowRate.toNat := by
  have hmin := scaled_mono h.min_le_optimal
  have hopt := scaled_mono h.optimal_le_maxRate
  have hsuper := scaled_mono h.maxRate_le_super
  by_cases hlow : u ≤ scaled config.optimalUtilizationRate.toNat
  · have := rateCurve_low h hlow
    omega
  · by_cases hmid : u ≤ scaled config.maxUtilizationRate.toNat
    · have := rateCurve_middle h hlow hmid
      omega
    · have := rateCurve_high h hmid hle
      omega

/-- The curve rises, over the kinks too. -/
theorem rateCurve_mono (huv : u ≤ v) (hle : v ≤ wad) : rateCurve config u ≤ rateCurve config v := by
  have hopt := scaled_mono h.optimal_le_maxRate
  have hkinks := scaled_mono h.optimal_le_max
  by_cases hlow : v ≤ scaled config.optimalUtilizationRate.toNat
  · rw [rateCurve, rateCurve, if_pos (huv.trans hlow), if_pos hlow]
    exact Nat.add_le_add_right (ramp_mono _ _ _ huv) _
  · by_cases hmid : v ≤ scaled config.maxUtilizationRate.toNat
    · by_cases hu : u ≤ scaled config.optimalUtilizationRate.toNat
      · exact (rateCurve_low h hu).2.trans (rateCurve_middle h hlow hmid).1
      · rw [rateCurve, rateCurve, if_neg hu, if_pos (huv.trans hmid), if_neg hlow, if_pos hmid]
        exact Nat.add_le_add_right (ramp_mono _ _ _ (Nat.sub_le_sub_right huv _)) _
    · have hhigh := (rateCurve_high h hmid hle).1
      by_cases hu : u ≤ scaled config.optimalUtilizationRate.toNat
      · exact ((rateCurve_low h hu).2.trans hopt).trans hhigh
      · by_cases hu' : u ≤ scaled config.maxUtilizationRate.toNat
        · exact (rateCurve_middle h hu hu').2.trans hhigh
        · rw [rateCurve, rateCurve, if_neg hu, if_neg hu', if_neg hlow, if_neg hmid]
          exact Nat.add_le_add_right (ramp_mono _ _ _ (Nat.sub_le_sub_right huv _)) _

end Curve

/-- Nothing overflows on a ramp between two percentages of eight bits. -/
theorem ramp_fits {x width : Nat} (hx : x ≤ width) (percent : UInt8) :
    x * wad / width * scaled percent.toNat < u128Bound := by
  have hpercent : scaled percent.toNat ≤ scaled 255 :=
    scaled_mono (by have := percent.toNat_lt; omega)
  exact Nat.lt_of_le_of_lt (Nat.mul_le_mul (share_le hx) hpercent) (by decide)

theorem borrowRateAt_low {utilization rate : Rate} (h : ValidConfig config)
    (hlow : utilization.scaledVal ≤ scaled config.optimalUtilizationRate.toNat)
    (hcurve : rateCurve config utilization.scaledVal = rate.scaledVal) :
    borrowRateAt config utilization = .ok rate := by
  rw [rateCurve, if_pos hlow] at hcurve
  rw [borrowRateAt, if_pos (Rate.le_iff.mpr hlow)]
  split
  · next hzero =>
    have hwidth : scaled config.optimalUtilizationRate.toNat = 0 :=
      congrArg Rate.scaledVal hzero
    rw [pure_eq_ok_iff]
    refine Rate.ext (Eq.trans ?_ hcurve)
    rw [hwidth, ramp, Nat.div_zero, zero_mul, Nat.zero_div, zero_add]
    rfl
  · next hzero =>
    have hwidth : scaled config.optimalUtilizationRate.toNat ≠ 0 := fun h0 =>
      hzero (Rate.ext h0)
    have hmin := h.min_le_optimal
    have hrange : (config.optimalBorrowRate - config.minBorrowRate).toNat =
        config.optimalBorrowRate.toNat - config.minBorrowRate.toNat :=
      UInt8.toNat_sub_of_le _ _ (UInt8.le_iff_toNat_le.mpr hmin)
    have hone : utilization.scaledVal ≤ wad :=
      hlow.trans (scaled_mono (h.optimal_le_max.trans h.maxUtilization_le))
    have hfits := ramp_fits hlow (config.optimalBorrowRate - config.minBorrowRate)
    simp only [bind_eq_ok_iff, Rate.tryDiv_eq_ok_iff, u8CheckedSub_eq_ok_iff,
      Rate.tryMul_eq_ok_iff, Rate.tryAdd_eq_ok_iff]
    refine ⟨⟨_, Nat.lt_of_le_of_lt (share_le hlow) (by decide)⟩, ⟨?_, hwidth, rfl⟩,
      config.optimalBorrowRate - config.minBorrowRate, by omega,
      ⟨_, Nat.lt_of_le_of_lt (Nat.div_le_self _ wad) hfits⟩, ⟨hfits, rfl⟩, ?_⟩
    · exact Nat.lt_of_le_of_lt (Nat.mul_le_mul_right wad hone) (by decide)
    · rw [← hcurve]
      simp only [hrange, ramp, scaled, Nat.sub_mul, Rate.fromPercent_scaledVal]

theorem borrowRateAt_middle {utilization rate : Rate} (h : ValidConfig config)
    (hlow : ¬ utilization.scaledVal ≤ scaled config.optimalUtilizationRate.toNat)
    (hmid : utilization.scaledVal ≤ scaled config.maxUtilizationRate.toNat)
    (hcurve : rateCurve config utilization.scaledVal = rate.scaledVal) :
    borrowRateAt config utilization = .ok rate := by
  rw [rateCurve, if_neg hlow, if_pos hmid] at hcurve
  rw [borrowRateAt, if_neg (mt Rate.le_iff.mp hlow), if_pos (Rate.le_iff.mpr hmid)]
  have hkinks := scaled_mono h.optimal_le_max
  have hrates := scaled_mono h.optimal_le_maxRate
  have hshare := Nat.sub_le_sub_right hmid (scaled config.optimalUtilizationRate.toNat)
  have hone : utilization.scaledVal - scaled config.optimalUtilizationRate.toNat ≤ wad :=
    (Nat.sub_le _ _).trans (hmid.trans (scaled_mono h.maxUtilization_le))
  have hfits : (utilization.scaledVal - scaled config.optimalUtilizationRate.toNat) * wad /
      (scaled config.maxUtilizationRate.toNat - scaled config.optimalUtilizationRate.toNat) *
        (scaled config.maxBorrowRate.toNat - scaled config.optimalBorrowRate.toNat) < u128Bound :=
    Nat.lt_of_le_of_lt (Nat.mul_le_mul_left _ (Nat.sub_le _ _)) (ramp_fits hshare _)
  simp only [bind_eq_ok_iff, Rate.trySub_eq_ok_iff, Rate.tryDiv_eq_ok_iff, Rate.tryMul_eq_ok_iff,
    Rate.tryAdd_eq_ok_iff]
  have hsub : ∀ (a : Rate) (n : Nat), a.scaledVal - n < u128Bound := fun a n =>
    Nat.lt_of_le_of_lt (Nat.sub_le _ _) a.lt
  refine ⟨⟨_, hsub utilization _⟩, (Nat.add_sub_of_le (Nat.le_of_not_le hlow)).symm,
    ⟨_, hsub (.fromPercent config.maxUtilizationRate) _⟩, (Nat.add_sub_of_le hkinks).symm,
    ⟨_, Nat.lt_of_le_of_lt (share_le hshare) (by decide)⟩, ⟨?_, ?_, rfl⟩,
    ⟨_, hsub (.fromPercent config.maxBorrowRate) _⟩, (Nat.add_sub_of_le hrates).symm,
    ⟨_, Nat.lt_of_le_of_lt (Nat.div_le_self _ wad) hfits⟩, ⟨hfits, rfl⟩, hcurve⟩
  · exact Nat.lt_of_le_of_lt (Nat.mul_le_mul_right wad hone) (by decide)
  · exact Nat.sub_ne_zero_of_lt (Nat.lt_of_lt_of_le (Nat.lt_of_not_le hlow) hmid)

theorem borrowRateAt_high {utilization rate : Rate} (h : ValidConfig config)
    (hhigh : ¬ utilization.scaledVal ≤ scaled config.maxUtilizationRate.toNat)
    (hle : utilization.scaledVal ≤ wad)
    (hcurve : rateCurve config utilization.scaledVal = rate.scaledVal) :
    borrowRateAt config utilization = .ok rate := by
  have hkinks := scaled_mono h.optimal_le_max
  have hrates := scaled_mono h.maxRate_le_super
  have hlow : ¬ utilization.scaledVal ≤ scaled config.optimalUtilizationRate.toNat := by omega
  rw [rateCurve, if_neg hlow, if_neg hhigh] at hcurve
  rw [borrowRateAt, if_neg (mt Rate.le_iff.mp hlow), if_neg (mt Rate.le_iff.mp hhigh)]
  have hmax := h.maxUtilization_le
  have hleft : ((100 : UInt8) - config.maxUtilizationRate).toNat =
      100 - config.maxUtilizationRate.toNat :=
    UInt8.toNat_sub_of_le _ _ (UInt8.le_iff_toNat_le.mpr hmax)
  have hwidth : scaled ((100 : UInt8) - config.maxUtilizationRate).toNat =
      wad - scaled config.maxUtilizationRate.toNat := by
    rw [hleft, scaled, Nat.sub_mul]
    rfl
  have hshare := Nat.sub_le_sub_right hle (scaled config.maxUtilizationRate.toNat)
  have hone : utilization.scaledVal - scaled config.maxUtilizationRate.toNat ≤ wad :=
    (Nat.sub_le _ _).trans hle
  have hfits : (utilization.scaledVal - scaled config.maxUtilizationRate.toNat) * wad /
      (wad - scaled config.maxUtilizationRate.toNat) *
        (scaled config.superMaxBorrowRate.toNat - scaled config.maxBorrowRate.toNat) <
          u192Bound := by
    have hrange : scaled config.superMaxBorrowRate.toNat - scaled config.maxBorrowRate.toNat ≤
        scaled (2 ^ 64) :=
      (Nat.sub_le _ _).trans (scaled_mono config.superMaxBorrowRate.toNat_lt.le)
    exact Nat.lt_of_le_of_lt (Nat.mul_le_mul (share_le hshare) hrange) (by decide)
  have hsub : ∀ (a : Rate) (n : Nat), a.scaledVal - n < u128Bound := fun a n =>
    Nat.lt_of_le_of_lt (Nat.sub_le _ _) a.lt
  have hsum := Nat.lt_of_le_of_lt hcurve.le
    (Nat.lt_trans rate.lt (by decide : u128Bound < u192Bound))
  simp only [bind_eq_ok_iff, Rate.trySub_eq_ok_iff, Rate.tryDiv_eq_ok_iff, u8CheckedSub_eq_ok_iff,
    Decimal.tryMul_eq_ok_iff, Decimal.tryAdd_eq_ok_iff, Decimal.tryIntoRate_eq_ok_iff,
    Decimal.ofRate_scaledVal]
  refine ⟨⟨_, hsub utilization _⟩, (Nat.add_sub_of_le (Nat.le_of_not_le hhigh)).symm,
    (100 : UInt8) - config.maxUtilizationRate, ?_,
    ⟨_, Nat.lt_of_le_of_lt (share_le hshare) (by decide)⟩, ⟨?_, ?_, ?_⟩,
    ⟨_, hsub (.fromPercentU64 config.superMaxBorrowRate) _⟩, (Nat.add_sub_of_le hrates).symm,
    _, ⟨hfits, rfl⟩, _, ⟨hsum, rfl⟩, hcurve⟩
  · rw [hleft]
    exact (Nat.add_sub_of_le hmax).symm
  · exact Nat.lt_of_le_of_lt (Nat.mul_le_mul_right wad hone) (by decide)
  · change scaled ((100 : UInt8) - config.maxUtilizationRate).toNat ≠ 0
    omega
  · change _ / scaled ((100 : UInt8) - config.maxUtilizationRate).toNat = _
    rw [hwidth]

/-- **The curve is what is computed**, and nothing on the way to it overflows. -/
theorem borrowRateAt_eq_ok_iff {utilization rate : Rate} (h : ValidConfig config)
    (hle : utilization.scaledVal ≤ wad) :
    borrowRateAt config utilization = .ok rate ↔
      rateCurve config utilization.scaledVal = rate.scaledVal := by
  have hok : ∀ rate : Rate, rateCurve config utilization.scaledVal = rate.scaledVal →
      borrowRateAt config utilization = .ok rate := by
    intro rate hcurve
    by_cases hlow : utilization.scaledVal ≤ scaled config.optimalUtilizationRate.toNat
    · exact borrowRateAt_low h hlow hcurve
    · by_cases hmid : utilization.scaledVal ≤ scaled config.maxUtilizationRate.toNat
      · exact borrowRateAt_middle h hlow hmid hcurve
      · exact borrowRateAt_high h hmid hle hcurve
  refine ⟨fun hrate => ?_, hok rate⟩
  have hlt := Nat.lt_of_le_of_lt (rateCurve_bounds h hle).2
    (Rate.percent_u64_lt config.superMaxBorrowRate)
  have hsame := hok ⟨_, hlt⟩ rfl
  rw [hrate, Except.ok.injEq] at hsame
  rw [hsame]

/-- The debt fits its packed form and the fees are covered. -/
structure ReserveLiquidity.Sound (liquidity : ReserveLiquidity) : Prop where
  borrowed_lt : liquidity.borrowedAmountWads.scaledVal < u128Bound
  fees_le : liquidity.accumulatedProtocolFeesWads.scaledVal ≤
    wad * liquidity.availableAmount.toNat + liquidity.borrowedAmountWads.scaledVal

/-- **The borrow rate.**  Under an accepted configuration every reserve has one;
it lies between the least and the highest rate of the configuration, and of two
reserves the more utilized one has at least the rate of the other. -/
theorem currentBorrowRate_mono (config : ReserveConfig) (reserve reserve' : Reserve)
    (hconfig : validateReserveConfig config = .ok ()) (hreserve : reserve.config = config)
    (hreserve' : reserve'.config = config) (hsound : reserve.liquidity.Sound)
    (hsound' : reserve'.liquidity.Sound) :
    ∃ utilization utilization' rate rate',
      reserve.liquidity.utilizationRate = .ok utilization ∧
        reserve'.liquidity.utilizationRate = .ok utilization' ∧
          reserve.currentBorrowRate = .ok rate ∧ reserve'.currentBorrowRate = .ok rate' ∧
            Rate.fromPercent config.minBorrowRate ≤ rate ∧
              rate ≤ Rate.fromPercentU64 config.superMaxBorrowRate ∧
                (utilization ≤ utilization' → rate ≤ rate') := by
  have hvalid := validConfig_of_ok hconfig
  have hcurve : ∀ {r : Reserve}, r.config = config → r.liquidity.Sound →
      ∃ utilization rate : Rate, r.liquidity.utilizationRate = .ok utilization ∧
        r.currentBorrowRate = .ok rate ∧ utilization.scaledVal ≤ wad ∧
          rateCurve config utilization.scaledVal = rate.scaledVal := by
    intro r hr hs
    obtain ⟨utilization, hu⟩ := ReserveLiquidity.exists_utilizationRate hs.borrowed_lt hs.fees_le
    have hle := ReserveLiquidity.utilizationRate_le hu
    have hlt := Nat.lt_of_le_of_lt (rateCurve_bounds hvalid hle).2
      (Rate.percent_u64_lt config.superMaxBorrowRate)
    obtain ⟨rate, hrate⟩ : ∃ rate : Rate,
        rateCurve config utilization.scaledVal = rate.scaledVal := ⟨⟨_, hlt⟩, rfl⟩
    refine ⟨utilization, rate, hu, ?_, hle, hrate⟩
    rw [Reserve.currentBorrowRate, bind_eq_ok_iff, hr]
    exact ⟨utilization, hu, (borrowRateAt_eq_ok_iff hvalid hle).mpr hrate⟩
  obtain ⟨u, rate, hu, hrate, hle, hval⟩ := hcurve hreserve hsound
  obtain ⟨u', rate', hu', hrate', hle', hval'⟩ := hcurve hreserve' hsound'
  obtain ⟨hmin, hmax⟩ := rateCurve_bounds hvalid hle
  rw [hval] at hmin hmax
  refine ⟨u, u', rate, rate', hu, hu', hrate, hrate', hmin, hmax, fun h => ?_⟩
  rw [Rate.le_iff, ← hval, ← hval']
  exact rateCurve_mono hvalid h hle'

/-- A reserve that is lent out in full against one that is lent out by half. -/
theorem currentBorrowRate_mono_full :
    ∃ half full, (plainReserve 100 100 200).currentBorrowRate = .ok half ∧
      (plainReserve 0 200 200).currentBorrowRate = .ok full ∧ half ≤ full ∧
        full.scaledVal = 2500000000000000000 := by
  obtain ⟨u, u', half, full, hu, hu', hhalf, hfull, -, -, hmono⟩ :=
    currentBorrowRate_mono plainConfig (plainReserve 100 100 200) (plainReserve 0 200 200)
      (by decide +kernel) rfl rfl ⟨by decide +kernel, by decide +kernel⟩
      ⟨by decide +kernel, by decide +kernel⟩
  obtain rfl : Rate.fromPercent 50 = u := by
    have heval : (plainReserve 100 100 200).liquidity.utilizationRate =
      .ok (Rate.fromPercent 50) := by decide +kernel
    exact Except.ok.inj (heval.symm.trans hu)
  obtain rfl : Rate.one = u' := by
    have heval : (plainReserve 0 200 200).liquidity.utilizationRate = .ok Rate.one := by
      decide +kernel
    exact Except.ok.inj (heval.symm.trans hu')
  refine ⟨half, full, hhalf, hfull, hmono (by decide), ?_⟩
  have heval : (plainReserve 0 200 200).currentBorrowRate = .ok (Rate.fromPercentU64 250) := by
    decide +kernel
  rw [heval, Except.ok.injEq] at hfull
  rw [← hfull]
  rfl

/-! ## Accrual -/

/-- One plus the interest of a slot, over the elapsed slots. -/
def compoundedInterestRate (currentBorrowRate : Rate) (slotsElapsed : UInt64) :
    Except LendingError Rate := do
  let slotInterestRate ← currentBorrowRate.tryDivU64 slotsPerYear
  let base ← Rate.one.tryAdd slotInterestRate
  base.tryPow slotsElapsed.toNat

def ReserveLiquidity.compoundInterest (currentBorrowRate : Rate) (slotsElapsed : UInt64)
    (takeRate : Rate) : Fallible LendingError ReserveLiquidity Unit := do
  let compounded ← compoundedInterestRate currentBorrowRate slotsElapsed
  let cumulativeBorrowRateWads ← (← get).cumulativeBorrowRateWads.tryMulRate compounded
  modify ({ · with cumulativeBorrowRateWads })
  let grown ← (← get).borrowedAmountWads.tryMulRate compounded
  let netNewDebt ← grown.trySub (← get).borrowedAmountWads
  let cut ← netNewDebt.tryMulRate takeRate
  let accumulatedProtocolFeesWads ← cut.tryAdd (← get).accumulatedProtocolFeesWads
  modify ({ · with accumulatedProtocolFeesWads })
  let borrowedAmountWads ← (← get).borrowedAmountWads.tryAdd netNewDebt
  modify ({ · with borrowedAmountWads })

/-- A method of `self.liquidity`. -/
def Reserve.onLiquidity {α : Type} (x : Fallible LendingError ReserveLiquidity α) :
    Fallible LendingError Reserve α :=
  zoom Reserve.liquidity (fun self liquidity => { self with liquidity }) x

def Reserve.accrueInterest (currentSlot : UInt64) : Fallible LendingError Reserve Unit := do
  let slotsElapsed ← (← get).lastUpdate.slotsElapsed currentSlot
  if 0 < slotsElapsed then
    let currentBorrowRate ← (← get).currentBorrowRate
    let takeRate := Rate.fromPercent (← get).config.protocolTakeRate
    onLiquidity (ReserveLiquidity.compoundInterest currentBorrowRate slotsElapsed takeRate)

/-- The growth of a debt by a compounded rate. -/
def newDebt (borrowed compounded : Nat) : Nat := borrowed * compounded / wad - borrowed

/-- A liquidity after its debt has grown. -/
def ReserveLiquidity.grow (self : ReserveLiquidity) (compounded takeRate : Rate) :
    ReserveLiquidity :=
  { self with
    cumulativeBorrowRateWads :=
      ⟨self.cumulativeBorrowRateWads.scaledVal * compounded.scaledVal / wad⟩
    borrowedAmountWads := ⟨self.borrowedAmountWads.scaledVal +
      newDebt self.borrowedAmountWads.scaledVal compounded.scaledVal⟩
    accumulatedProtocolFeesWads :=
      ⟨newDebt self.borrowedAmountWads.scaledVal compounded.scaledVal * takeRate.scaledVal / wad +
        self.accumulatedProtocolFeesWads.scaledVal⟩ }

theorem compoundInterest_of_ok {liquidity after : ReserveLiquidity} {rate takeRate : Rate}
    {slots : UInt64}
    (h : (ReserveLiquidity.compoundInterest rate slots takeRate).exec liquidity = (.ok (), after)) :
    ∃ compounded, compoundedInterestRate rate slots = .ok compounded ∧
      after = liquidity.grow compounded takeRate := by
  simp only [ReserveLiquidity.compoundInterest, exec_lift_bind_eq_ok_iff, exec_get_bind,
    exec_modify_bind, exec_modify, Prod.mk.injEq, Decimal.tryMulRate_eq_ok_iff,
    Decimal.trySub_eq_ok_iff, Decimal.tryAdd_eq_ok_iff] at h
  obtain ⟨compounded, hc, _, ⟨-, rfl⟩, _, ⟨-, rfl⟩, _, ⟨-, rfl⟩, _, ⟨-, rfl⟩, _, ⟨-, rfl⟩, _,
    ⟨-, rfl⟩, -, rfl⟩ := h
  exact ⟨compounded, hc, rfl⟩

/-- A failed accrual has touched the cumulative rate at most: the last addition cannot fail. -/
theorem compoundInterest_of_error {liquidity after : ReserveLiquidity} {rate takeRate : Rate}
    {slots : UInt64} {e : LendingError}
    (h : (ReserveLiquidity.compoundInterest rate slots takeRate).exec liquidity =
      (.error e, after)) :
    ∃ cumulative, after = { liquidity with cumulativeBorrowRateWads := cumulative } := by
  simp only [ReserveLiquidity.compoundInterest, exec_lift_bind_eq_error_iff, exec_get_bind,
    exec_modify_bind, exec_modify, Prod.mk.injEq, Decimal.tryMulRate_eq_ok_iff,
    Decimal.trySub_eq_ok_iff, Decimal.tryAdd_eq_ok_iff, reduceCtorEq, false_and, exists_false,
    and_false, or_false] at h
  rcases h with ⟨-, rfl⟩ | ⟨compounded, -, ⟨-, rfl⟩ | ⟨_, ⟨-, rfl⟩, h⟩⟩
  · exact ⟨_, rfl⟩
  · exact ⟨_, rfl⟩
  · rcases h with ⟨-, rfl⟩ | ⟨_, ⟨hgrown, rfl⟩, ⟨-, rfl⟩ | ⟨_, ⟨hle, rfl⟩, h⟩⟩
    · exact ⟨_, rfl⟩
    · exact ⟨_, rfl⟩
    · rcases h with ⟨-, rfl⟩ | ⟨_, -, ⟨-, rfl⟩ | ⟨_, -, herror, -⟩⟩
      · exact ⟨_, rfl⟩
      · exact ⟨_, rfl⟩
      · dsimp only at herror hle hgrown
        rw [Decimal.tryAdd_eq_ok_iff.mpr ⟨?_, rfl⟩] at herror
        · cases herror
        · dsimp only
          rw [Nat.add_sub_of_le hle]
          exact Nat.lt_of_le_of_lt (Nat.div_le_self _ _) hgrown

section Accrual

variable {reserve after : Reserve} {slot slots : UInt64}

/-- An accrual that goes through: no slot has passed, or the debt has grown. -/
theorem accrueInterest_of_ok
    (h : (Reserve.accrueInterest slot).exec reserve = (.ok (), after)) :
    (slot = reserve.lastUpdate.slot ∧ after = reserve) ∨
      ∃ slots rate compounded, slot.toNat = reserve.lastUpdate.slot.toNat + slots.toNat ∧
        reserve.currentBorrowRate = .ok rate ∧ compoundedInterestRate rate slots = .ok compounded ∧
          after = { reserve with
            liquidity := reserve.liquidity.grow compounded
              (.fromPercent reserve.config.protocolTakeRate) } := by
  simp only [Reserve.accrueInterest, exec_get_bind, exec_lift_bind_eq_ok_iff,
    LastUpdate.slotsElapsed, u64CheckedSub_eq_ok_iff] at h
  obtain ⟨slots, hslots, h⟩ := h
  split at h
  · simp only [exec_lift_bind_eq_ok_iff, exec_get_bind, Reserve.onLiquidity,
      exec_zoom_eq_iff] at h
    obtain ⟨rate, hrate, liquidity, hok, rfl⟩ := h
    obtain ⟨compounded, hcompounded, rfl⟩ := compoundInterest_of_ok hok
    exact Or.inr ⟨slots, rate, compounded, hslots, hrate, hcompounded, rfl⟩
  · next hzero =>
    simp only [exec_pure, Prod.mk.injEq, true_and] at h
    have hnone : slots.toNat = 0 := by
      rw [UInt64.lt_iff_toNat_lt] at hzero
      exact Nat.eq_zero_of_not_pos hzero
    exact Or.inl ⟨UInt64.toNat_inj.mp (by omega), h.symm⟩

theorem accrueInterest_of_error {e : LendingError}
    (h : (Reserve.accrueInterest slot).exec reserve = (.error e, after)) :
    ∃ cumulative, after = { reserve with
      liquidity := { reserve.liquidity with cumulativeBorrowRateWads := cumulative } } := by
  simp only [Reserve.accrueInterest, exec_get_bind, exec_lift_bind_eq_error_iff] at h
  rcases h with ⟨-, rfl⟩ | ⟨slots, -, h⟩
  · exact ⟨_, rfl⟩
  · split at h
    · simp only [exec_lift_bind_eq_error_iff, exec_get_bind, Reserve.onLiquidity,
        exec_zoom_eq_iff] at h
      rcases h with ⟨-, rfl⟩ | ⟨rate, -, liquidity, herror, rfl⟩
      · exact ⟨_, rfl⟩
      · obtain ⟨cumulative, rfl⟩ := compoundInterest_of_error herror
        exact ⟨cumulative, rfl⟩
    · simp at h

theorem compoundedInterestRate_bounds {rate compounded : Rate}
    (h : compoundedInterestRate rate slots = .ok compounded) :
    wad + slots.toNat * (rate.scaledVal / slotsPerYear) ≤ compounded.scaledVal ∧
      compounded.scaledVal * wad ^ slots.toNat ≤
        wad * (wad + rate.scaledVal / slotsPerYear) ^ slots.toNat := by
  simp only [compoundedInterestRate, bind_eq_ok_iff, Rate.tryDivU64_eq_ok_iff,
    Rate.tryAdd_eq_ok_iff, Rate.one_scaledVal] at h
  obtain ⟨slotRate, ⟨-, hslot⟩, base, hbase, hpow⟩ := h
  rw [← hslot] at hbase
  rw [hbase]
  exact Rate.tryPow_bounds hbase.symm hpow

theorem wad_le_compounded {rate compounded : Rate}
    (h : compoundedInterestRate rate slots = .ok compounded) : wad ≤ compounded.scaledVal :=
  (Nat.le_add_right _ _).trans (compoundedInterestRate_bounds h).1

/-- The debt with its growth is the compounded debt, rounded down. -/
theorem add_newDebt (borrowed : Nat) {compounded : Nat} (h : wad ≤ compounded) :
    borrowed + newDebt borrowed compounded = borrowed * compounded / wad :=
  Nat.add_sub_of_le (le_mul_div_self wad_pos h)

/-- What `n` slots at a slot interest of `x` do to a liquidity. -/
structure Accrued (n x : Nat) (before after : ReserveLiquidity) : Prop where
  borrowed_ge : before.borrowedAmountWads.scaledVal * (wad + n * x) / wad ≤
    after.borrowedAmountWads.scaledVal
  borrowed_le : after.borrowedAmountWads.scaledVal * wad ^ n ≤
    before.borrowedAmountWads.scaledVal * (wad + x) ^ n
  cumulative_ge : before.cumulativeBorrowRateWads.scaledVal * (wad + n * x) / wad ≤
    after.cumulativeBorrowRateWads.scaledVal
  cumulative_le : after.cumulativeBorrowRateWads.scaledVal * wad ^ n ≤
    before.cumulativeBorrowRateWads.scaledVal * (wad + x) ^ n
  fees_ge : before.accumulatedProtocolFeesWads.scaledVal ≤
    after.accumulatedProtocolFeesWads.scaledVal
  /-- The fees take no more than the debt has grown. -/
  fees_le : after.accumulatedProtocolFeesWads.scaledVal + before.borrowedAmountWads.scaledVal ≤
    before.accumulatedProtocolFeesWads.scaledVal + after.borrowedAmountWads.scaledVal
  available_eq : after.availableAmount = before.availableAmount

/-- A product with a compounded rate, rounded down, against both kinds of interest. -/
theorem mul_compounded_bounds {n x c : Nat} (amount : Nat) (hlower : wad + n * x ≤ c)
    (hupper : c * wad ^ n ≤ wad * (wad + x) ^ n) :
    amount * (wad + n * x) / wad ≤ amount * c / wad ∧
      amount * c / wad * wad ^ n ≤ amount * (wad + x) ^ n := by
  refine ⟨Nat.div_le_div_right (Nat.mul_le_mul_left amount hlower), ?_⟩
  refine Nat.le_of_mul_le_mul_right ?_ wad_pos
  calc amount * c / wad * wad ^ n * wad = amount * c / wad * wad * wad ^ n := by ring
    _ ≤ amount * c * wad ^ n := Nat.mul_le_mul_right _ (Nat.div_mul_le_self _ _)
    _ = amount * (c * wad ^ n) := by ring
    _ ≤ amount * (wad * (wad + x) ^ n) := Nat.mul_le_mul_left amount hupper
    _ = amount * (wad + x) ^ n * wad := by ring

theorem Accrued.grow {n x : Nat} {compounded takeRate : Rate} (liquidity : ReserveLiquidity)
    (hlower : wad + n * x ≤ compounded.scaledVal)
    (hupper : compounded.scaledVal * wad ^ n ≤ wad * (wad + x) ^ n)
    (htake : takeRate.scaledVal ≤ wad) :
    Accrued n x liquidity (liquidity.grow compounded takeRate) := by
  have hone : wad ≤ compounded.scaledVal := (Nat.le_add_right _ _).trans hlower
  have hborrowed := mul_compounded_bounds liquidity.borrowedAmountWads.scaledVal hlower hupper
  have hcumulative :=
    mul_compounded_bounds liquidity.cumulativeBorrowRateWads.scaledVal hlower hupper
  have hdebt := add_newDebt liquidity.borrowedAmountWads.scaledVal hone
  have hcut := mul_div_le (a := newDebt liquidity.borrowedAmountWads.scaledVal
    compounded.scaledVal) htake
  refine ⟨?_, ?_, hcumulative.1, hcumulative.2, Nat.le_add_left _ _, ?_, rfl⟩
  · rw [ReserveLiquidity.grow, hdebt]
    exact hborrowed.1
  · rw [ReserveLiquidity.grow, hdebt]
    exact hborrowed.2
  · unfold ReserveLiquidity.grow
    dsimp only
    omega

theorem Accrued.refl (x : Nat) (liquidity : ReserveLiquidity) :
    Accrued 0 x liquidity liquidity where
  borrowed_ge := by simp [Nat.mul_div_cancel _ wad_pos]
  borrowed_le := by simp
  cumulative_ge := by simp [Nat.mul_div_cancel _ wad_pos]
  cumulative_le := by simp
  fees_ge := Nat.le_refl _
  fees_le := Nat.le_refl _
  available_eq := rfl

theorem Accrued.grow_of_ok {reserve : Reserve} {rate compounded : Rate} {slots : UInt64}
    (hconfig : validateReserveConfig reserve.config = .ok ())
    (hc : compoundedInterestRate rate slots = .ok compounded) :
    Accrued slots.toNat (rate.scaledVal / slotsPerYear) reserve.liquidity
      (reserve.liquidity.grow compounded (Rate.fromPercent reserve.config.protocolTakeRate)) := by
  obtain ⟨hlower, hupper⟩ := compoundedInterestRate_bounds hc
  have htake : (Rate.fromPercent reserve.config.protocolTakeRate).scaledVal ≤ wad :=
    scaled_mono (validConfig_of_ok hconfig).takeRate_le
  exact Accrued.grow reserve.liquidity hlower hupper htake

/-- An accrual that goes through changes the liquidity only. -/
theorem accrueInterest_accrued {reserve after : Reserve} {slot : UInt64}
    (hconfig : validateReserveConfig reserve.config = .ok ())
    (h : (Reserve.accrueInterest slot).exec reserve = (.ok (), after)) :
    (∃ n x, Accrued n x reserve.liquidity after.liquidity) ∧
      after = { reserve with liquidity := after.liquidity } := by
  rcases accrueInterest_of_ok h with ⟨-, rfl⟩ | ⟨slots, rate, compounded, -, -, hc, rfl⟩
  · exact ⟨⟨0, 0, Accrued.refl 0 _⟩, rfl⟩
  · exact ⟨⟨_, _, Accrued.grow_of_ok hconfig hc⟩, rfl⟩

/-- **Accrual.**  Over the slots since the last update the debt and the cumulative
rate grow at least by simple and at most by compound interest at the current
rate, the fees grow by no more than the debt, and nothing else changes. -/
theorem accrueInterest_bounds (reserve after : Reserve) (slot : UInt64)
    (hconfig : validateReserveConfig reserve.config = .ok ())
    (h : (Reserve.accrueInterest slot).exec reserve = (.ok (), after)) :
    ∃ n x, slot.toNat = reserve.lastUpdate.slot.toNat + n ∧
      Accrued n x reserve.liquidity after.liquidity ∧
        after = { reserve with liquidity := after.liquidity } ∧
          (n ≠ 0 → ∃ rate, reserve.currentBorrowRate = .ok rate ∧
            x = rate.scaledVal / slotsPerYear) := by
  obtain ⟨-, hafter⟩ := accrueInterest_accrued hconfig h
  rcases accrueInterest_of_ok h with ⟨rfl, rfl⟩ | ⟨slots, rate, compounded, hslots, hrate, hc, rfl⟩
  · exact ⟨0, 0, rfl, Accrued.refl 0 _, hafter, fun hn => absurd rfl hn⟩
  · exact ⟨slots.toNat, rate.scaledVal / slotsPerYear, hslots, Accrued.grow_of_ok hconfig hc,
      hafter,
      fun _ => ⟨rate, hrate, rfl⟩⟩

/-- A thousand slots of a reserve that is lent out in full. -/
theorem accrueInterest_bounds_thousand :
    ∃ after, (Reserve.accrueInterest 1000).exec (plainReserve 0 200 200) = (.ok (), after) ∧
      200007927447992000000 ≤ after.liquidity.borrowedAmountWads.scaledVal := by
  obtain ⟨after, hafter⟩ : ∃ after,
      (Reserve.accrueInterest 1000).exec (plainReserve 0 200 200) = (.ok (), after) := by
    refine ⟨((Reserve.accrueInterest 1000).exec (plainReserve 0 200 200)).2, ?_⟩
    exact Prod.ext (by decide +kernel) rfl
  refine ⟨after, hafter, ?_⟩
  obtain ⟨n, x, hn, haccrued, -, hslot⟩ :=
    accrueInterest_bounds (plainReserve 0 200 200) after 1000 (by decide +kernel) hafter
  obtain rfl : n = 1000 := by
    have hstart : (plainReserve 0 200 200).lastUpdate.slot.toNat = 0 := rfl
    rw [hstart, zero_add] at hn
    exact hn.symm
  obtain ⟨rate, hrate, rfl⟩ := hslot (by decide)
  have heval : (plainReserve 0 200 200).currentBorrowRate = .ok (Rate.fromPercentU64 250) := by
    decide +kernel
  obtain rfl := Except.ok.inj (heval.symm.trans hrate)
  exact le_trans (by decide +kernel) haccrued.borrowed_ge

theorem exists_compoundedInterestRate_iff {rate : Rate} :
    (∃ c, compoundedInterestRate rate slots = .ok c) ↔ ∃ base : Rate,
      base.scaledVal = wad + rate.scaledVal / slotsPerYear ∧
        ∃ c, base.tryPow slots.toNat = .ok c := by
  simp only [compoundedInterestRate, bind_eq_ok_iff, Rate.tryDivU64_eq_ok_iff,
    Rate.tryAdd_eq_ok_iff, Rate.one_scaledVal]
  constructor
  · rintro ⟨c, slotRate, ⟨-, hslot⟩, base, hbase, hpow⟩
    exact ⟨base, by omega, c, hpow⟩
  · rintro ⟨base, hbase, c, hpow⟩
    refine ⟨c, ⟨rate.scaledVal / slotsPerYear, ?_⟩, ⟨by decide, rfl⟩, base, hbase.symm, hpow⟩
    exact Nat.lt_of_le_of_lt (Nat.div_le_self _ _) rate.lt

/-- **Left alone for too long.**  Once the interest of the slots since the last
update cannot be compounded, no later slot can accrue either, and the reserve
stays as it is. -/
theorem accrueInterest_locked (reserve : Reserve) (rate : Rate) (slots slot : UInt64)
    (hrate : reserve.currentBorrowRate = .ok rate) (hpos : 0 < slots)
    (hfail : ¬ ∃ c, compoundedInterestRate rate slots = .ok c)
    (hle : reserve.lastUpdate.slot.toNat + slots.toNat ≤ slot.toNat) :
    ∃ e, (Reserve.accrueInterest slot).exec reserve = (.error e, reserve) := by
  rw [UInt64.lt_iff_toNat_lt] at hpos
  obtain ⟨elapsed, helapsed⟩ : ∃ elapsed, reserve.lastUpdate.slotsElapsed slot = .ok elapsed := by
    refine ⟨slot - reserve.lastUpdate.slot, ?_⟩
    have hsub := UInt64.toNat_sub_of_le slot reserve.lastUpdate.slot
      (UInt64.le_iff_toNat_le.mpr (by omega))
    rw [LastUpdate.slotsElapsed, u64CheckedSub_eq_ok_iff]
    omega
  have hmore : slots.toNat ≤ elapsed.toNat := by
    have := u64CheckedSub_eq_ok_iff.mp helapsed
    omega
  have hfails : ¬ ∃ c, compoundedInterestRate rate elapsed = .ok c := by
    rw [exists_compoundedInterestRate_iff] at hfail ⊢
    rintro ⟨base, hbase, hpow⟩
    have hone : wad ≤ base.scaledVal := hbase ▸ Nat.le_add_right _ _
    exact Rate.tryPow_fails_of_le hone hmore (fun hc => hfail ⟨base, hbase, hc⟩) hpow
  cases hcompound : compoundedInterestRate rate elapsed with
  | ok c => exact absurd ⟨c, hcompound⟩ hfails
  | error e =>
    refine ⟨e, ?_⟩
    have hnow : 0 < elapsed := UInt64.lt_iff_toNat_lt.mpr (Nat.lt_of_lt_of_le hpos hmore)
    simp only [Reserve.accrueInterest, exec_get_bind, exec_lift_bind_eq_error_iff]
    refine Or.inr ⟨elapsed, helapsed, ?_⟩
    rw [if_pos hnow]
    simp only [exec_lift_bind_eq_error_iff, exec_get_bind, Reserve.onLiquidity, exec_zoom_eq_iff,
      ReserveLiquidity.compoundInterest]
    exact Or.inr ⟨rate, hrate, reserve.liquidity, Or.inl ⟨hcompound, rfl⟩, rfl⟩

/-- At 250 percent a year, after some two years. -/
theorem accrueInterest_locked_full :
    ∃ e, (Reserve.accrueInterest 200000000).exec (plainReserve 0 200 200) =
      (.error e, plainReserve 0 200 200) := by
  refine accrueInterest_locked (plainReserve 0 200 200) (.fromPercentU64 250) 134217728 200000000
    (by decide +kernel) (by decide) ?_ (by decide)
  rw [exists_compoundedInterestRate_iff]
  rintro ⟨base, hbase, hpow⟩
  have hone : wad ≤ base.scaledVal := hbase ▸ Nat.le_add_right _ _
  have hsquare := (Rate.exists_tryPow_iff hone).mp hpow 27 (by decide)
  rw [hbase] at hsquare
  exact absurd hsquare (by decide +kernel)

end Accrual

end Solend

end Gyrfalcon
