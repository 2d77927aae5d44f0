import Gyrfalcon.SaveObligation

/-!
# Solend liquidations (`patches/solend-sdk/src/state/reserve.rs`)

A liquidator repays part of a debt and takes collateral of the same value and a
bonus.  The bonus grows with the debt, from the least to the highest of the
reserve's configuration.  Every quotient is rounded down, which favours the
obligation except in one place: when the collateral does not cover the
liquidation, it is what is settled that is rounded (`calculateLiquidation_fair`).
-/

namespace Gyrfalcon

open FixedPoint Fallible

namespace Solend

def liquidationCloseFactor : UInt8 := 20

def maxLiquidatableValueAtOnce : Nat := 500000

structure Bonus where
  totalBonus : Decimal
  protocolLiquidationFee : Decimal
  deriving DecidableEq, Repr

structure CalculateLiquidationResult where
  settleAmount : Decimal
  repayAmount : UInt64
  withdrawAmount : UInt64
  deriving DecidableEq, Repr

def Obligation.maxLiquidationAmount (self : Obligation) (liquidity : ObligationLiquidity) :
    Except LendingError Decimal := do
  let closeValue ← self.borrowedValue.tryMulRate (.fromPercent liquidationCloseFactor)
  let maxLiquidationValue := min (min closeValue liquidity.marketValue)
    (.ofNat maxLiquidatableValueAtOnce)
  let maxLiquidationPct ← maxLiquidationValue.tryDiv liquidity.marketValue
  liquidity.borrowedAmountWads.tryMul maxLiquidationPct

/-- How far a debt is between two thresholds.  A quotient that overflows is a weight of one. -/
def bonusWeight (excess range : Decimal) : Decimal :=
  min ((excess.tryDiv range).toOption.getD .one) .one

namespace Reserve

def calculateBonus (self : Reserve) (obligation : Obligation) : Except LendingError Bonus := do
  if obligation.borrowedValue < obligation.unhealthyBorrowValue then
    if obligation.closeable then return ⟨.zero, .zero⟩
    else .error .obligationHealthy
  else
    let liquidationBonus := Decimal.fromPercent self.config.liquidationBonus
    let maxLiquidationBonus := Decimal.fromPercent self.config.maxLiquidationBonus
    let protocolLiquidationFee := Decimal.fromDecaBps self.config.protocolLiquidationFee
    if obligation.unhealthyBorrowValue = obligation.superUnhealthyBorrowValue then
      let bonus ← liquidationBonus.tryAdd protocolLiquidationFee
      return ⟨min bonus (.fromPercent maxBonusPct), protocolLiquidationFee⟩
    else
      let excess ← obligation.borrowedValue.trySub obligation.unhealthyBorrowValue
      let range ← obligation.superUnhealthyBorrowValue.trySub obligation.unhealthyBorrowValue
      let weight := bonusWeight excess range
      let rise ← maxLiquidationBonus.trySub liquidationBonus
      let bonus ← liquidationBonus.tryAdd (← weight.tryMul rise)
      let bonus ← bonus.tryAdd protocolLiquidationFee
      return ⟨min bonus (.fromPercent maxBonusPct), protocolLiquidationFee⟩

/-- The three ways a liquidation can end: the collateral does not cover it, covers it
exactly, or covers more, where `withdraw` is the part of it to take. -/
def liquidateAgainst (collateral : ObligationCollateral)
    (liquidationAmount liquidationValue : Decimal)
    (withdraw : Decimal → UInt64 → Except LendingError UInt64) :
    Except LendingError CalculateLiquidationResult :=
  match compare liquidationValue collateral.marketValue with
  | .gt => do
    let repayPct ← collateral.marketValue.tryDiv liquidationValue
    let settleAmount ← liquidationAmount.tryMul repayPct
    let repayAmount ← settleAmount.tryCeilU64
    return ⟨settleAmount, repayAmount, collateral.depositedAmount⟩
  | .eq => do
    let repayAmount ← liquidationAmount.tryCeilU64
    return ⟨liquidationAmount, repayAmount, collateral.depositedAmount⟩
  | .lt => do
    let withdrawPct ← liquidationValue.tryDiv collateral.marketValue
    let repayAmount ← liquidationAmount.tryCeilU64
    let withdrawAmount ← withdraw withdrawPct repayAmount
    return ⟨liquidationAmount, repayAmount, withdrawAmount⟩

/-- A part of the deposit, rounded down. -/
def withdrawPart (collateral : ObligationCollateral) (withdrawPct : Decimal) :
    Except LendingError UInt64 := do
  let amount ← (Decimal.ofNat collateral.depositedAmount.toNat).tryMul withdrawPct
  amount.tryFloorU64

/-- The debt is worth at most one: it is liquidated in full, and no part of the deposit
is too small to take. -/
def liquidateDust (liquidity : ObligationLiquidity) (collateral : ObligationCollateral)
    (bonusRate : Decimal) : Except LendingError CalculateLiquidationResult := do
  let liquidationValue ← liquidity.marketValue.tryMul bonusRate
  liquidateAgainst collateral liquidity.borrowedAmountWads liquidationValue
    fun withdrawPct repayAmount => do
      refuseIf (repayAmount = 0) .liquidationTooSmall
      let withdrawAmount ← withdrawPart collateral withdrawPct
      return max withdrawAmount 1

def liquidatePart (obligation : Obligation) (liquidity : ObligationLiquidity)
    (collateral : ObligationCollateral) (bonusRate maxAmount : Decimal) :
    Except LendingError CalculateLiquidationResult := do
  let maxLiquidationAmount ← obligation.maxLiquidationAmount liquidity
  let liquidationAmount := min maxLiquidationAmount maxAmount
  let liquidationPct ← liquidationAmount.tryDiv liquidity.borrowedAmountWads
  let value ← liquidity.marketValue.tryMul liquidationPct
  let liquidationValue ← value.tryMul bonusRate
  liquidateAgainst collateral liquidationAmount liquidationValue
    fun withdrawPct _ => withdrawPart collateral withdrawPct

/-- The `&self` of the source is not read. -/
def calculateLiquidation (amountToLiquidate : UInt64) (obligation : Obligation)
    (liquidity : ObligationLiquidity) (collateral : ObligationCollateral) (bonus : Bonus) :
    Except LendingError CalculateLiquidationResult := do
  refuseIf (Decimal.fromPercent maxBonusPct < bonus.totalBonus) .invalidAmount
  let bonusRate ← bonus.totalBonus.tryAdd .one
  let maxAmount := if amountToLiquidate.toNat = u64Max then liquidity.borrowedAmountWads
    else min (.ofNat amountToLiquidate.toNat) liquidity.borrowedAmountWads
  if liquidity.marketValue ≤ .one then liquidateDust liquidity collateral bonusRate
  else liquidatePart obligation liquidity collateral bonusRate maxAmount

/-- The `&self` of the source is not read. -/
def calculateProtocolLiquidationFee (amountLiquidated : UInt64) (bonus : Bonus) :
    Except LendingError UInt64 := do
  refuseIf (Decimal.fromPercent maxBonusPct < bonus.totalBonus) .invalidAmount
  let rate ← Decimal.one.tryAdd bonus.totalBonus
  let nonbonusAmount ← (Decimal.ofNat amountLiquidated.toNat).tryDiv rate
  let fee ← nonbonusAmount.tryMul bonus.protocolLiquidationFee
  let fee ← fee.tryCeilU64
  return max fee 1

end Reserve

/-! ## The bonus -/

theorem bonusWeight_of_ok {excess range q : Decimal} (h : excess.tryDiv range = .ok q) :
    bonusWeight excess range = min q .one := by
  rw [bonusWeight, h]
  rfl

theorem bonusWeight_of_error {excess range : Decimal} {e : LendingError}
    (h : excess.tryDiv range = .error e) : bonusWeight excess range = .one := by
  rw [bonusWeight, h]
  exact min_self _

theorem bonusWeight_le (excess range : Decimal) : bonusWeight excess range ≤ .one :=
  min_le_right _ _

theorem bonusWeight_mono {a b range : Decimal} (h : a ≤ b) :
    bonusWeight a range ≤ bonusWeight b range := by
  cases hb : b.tryDiv range with
  | error e =>
    rw [bonusWeight_of_error hb]
    exact bonusWeight_le a range
  | ok q =>
    obtain ⟨hlt, hrange, rfl⟩ := Decimal.tryDiv_eq_ok_iff.mp hb
    have hle : a.scaledVal * wad ≤ b.scaledVal * wad := Nat.mul_le_mul_right _ (Decimal.le_iff.mp h)
    have ha : a.tryDiv range = .ok ⟨a.scaledVal * wad / range.scaledVal⟩ :=
      Decimal.tryDiv_eq_ok_iff.mpr ⟨Nat.lt_of_le_of_lt hle hlt, hrange, rfl⟩
    rw [bonusWeight_of_ok ha, bonusWeight_of_ok hb]
    exact min_le_min_right _ (Decimal.le_iff.mpr (Nat.div_le_div_right hle))

/-- At the second threshold and above. -/
theorem bonusWeight_eq_one {excess range : Decimal} (h : range ≤ excess) :
    bonusWeight excess range = .one := by
  cases hq : excess.tryDiv range with
  | error e => exact bonusWeight_of_error hq
  | ok q =>
    obtain ⟨-, hrange, rfl⟩ := Decimal.tryDiv_eq_ok_iff.mp hq
    rw [bonusWeight_of_ok hq]
    refine min_eq_right (Decimal.le_iff.mpr ?_)
    refine (Nat.le_div_iff_mul_le (Nat.pos_of_ne_zero hrange)).mpr ?_
    rw [Decimal.one_scaledVal, mul_comm]
    exact Nat.mul_le_mul_right _ (Decimal.le_iff.mp h)

/-- The bonus of a configuration at a weight, the protocol's part included. -/
def bonusAt (config : ReserveConfig) (weight : Nat) : Nat :=
  config.liquidationBonus.toNat * percentScaler +
    weight * (config.maxLiquidationBonus.toNat * percentScaler -
      config.liquidationBonus.toNat * percentScaler) / wad +
        wad * config.protocolLiquidationFee.toNat / 1000

theorem bonusAt_mono (config : ReserveConfig) {weight weight' : Nat} (h : weight ≤ weight') :
    bonusAt config weight ≤ bonusAt config weight' :=
  Nat.add_le_add_right
    (Nat.add_le_add_left (Nat.div_le_div_right (Nat.mul_le_mul_right _ h)) _) _

/-- The highest bonus, at a weight of one. -/
theorem bonusAt_wad {config : ReserveConfig} (h : ValidConfig config) :
    bonusAt config wad = config.maxLiquidationBonus.toNat * percentScaler +
      wad * config.protocolLiquidationFee.toNat / 1000 := by
  unfold bonusAt
  have hle := Nat.mul_le_mul_right percentScaler h.bonus_le_max
  rw [Nat.mul_div_cancel_left _ wad_pos, Nat.add_sub_cancel' hle]

theorem bonusAt_le {config : ReserveConfig} (h : ValidConfig config) {weight : Nat}
    (hweight : weight ≤ wad) : bonusAt config weight ≤ maxBonusPct.toNat * percentScaler := by
  refine (bonusAt_mono config hweight).trans ?_
  rw [bonusAt_wad h]
  have := h.bonus_and_fee_le
  have hpct : maxBonusPct.toNat = 25 := rfl
  unfold percentScaler wad
  omega

namespace Reserve

/-- The weight of an unhealthy obligation. -/
def weightOf (obligation : Obligation) : Nat :=
  if obligation.unhealthyBorrowValue = obligation.superUnhealthyBorrowValue then 0
  else (bonusWeight
    ⟨obligation.borrowedValue.scaledVal - obligation.unhealthyBorrowValue.scaledVal⟩
    ⟨obligation.superUnhealthyBorrowValue.scaledVal -
      obligation.unhealthyBorrowValue.scaledVal⟩).scaledVal

theorem weightOf_le (obligation : Obligation) : weightOf obligation ≤ wad := by
  unfold weightOf
  split
  · exact Nat.zero_le _
  · exact Decimal.le_iff.mp (bonusWeight_le _ _)

section Weights

variable {obligation obligation' : Obligation}
  (hunhealthy : obligation'.unhealthyBorrowValue = obligation.unhealthyBorrowValue)
  (hsuper : obligation'.superUnhealthyBorrowValue = obligation.superUnhealthyBorrowValue)

include hunhealthy hsuper

theorem weightOf_mono (hmore : obligation.borrowedValue ≤ obligation'.borrowedValue) :
    weightOf obligation ≤ weightOf obligation' := by
  unfold weightOf
  rw [hunhealthy, hsuper]
  split
  · exact Nat.le_refl _
  · refine Decimal.le_iff.mp (bonusWeight_mono (Decimal.le_iff.mpr ?_))
    exact Nat.sub_le_sub_right (Decimal.le_iff.mp hmore) _

/-- At the second threshold. -/
theorem weightOf_eq_wad
    (hlt : obligation.unhealthyBorrowValue < obligation.superUnhealthyBorrowValue)
    (hfar : obligation.superUnhealthyBorrowValue ≤ obligation'.borrowedValue) :
    weightOf obligation' = wad := by
  unfold weightOf
  rw [hunhealthy, hsuper, if_neg hlt.ne, bonusWeight_eq_one, Decimal.one_scaledVal]
  exact Decimal.le_iff.mpr (Nat.sub_le_sub_right (Decimal.le_iff.mp hfar) _)

end Weights

variable {self : Reserve} {obligation : Obligation} {bonus : Bonus}

/-- What `calculate_bonus` computes for an unhealthy obligation; nothing in it can fail. -/
theorem calculateBonus_eq (hconfig : ValidConfig self.config)
    (hthresholds : obligation.unhealthyBorrowValue ≤ obligation.superUnhealthyBorrowValue)
    (hunhealthy : obligation.unhealthyBorrowValue ≤ obligation.borrowedValue) :
    self.calculateBonus obligation = .ok ⟨⟨bonusAt self.config (weightOf obligation)⟩,
      .fromDecaBps self.config.protocolLiquidationFee⟩ := by
  have hcap : min (⟨bonusAt self.config (weightOf obligation)⟩ : Decimal)
      (.fromPercent maxBonusPct) =
      ⟨bonusAt self.config (weightOf obligation)⟩ :=
    min_eq_left (Decimal.le_iff.mpr (bonusAt_le hconfig (weightOf_le obligation)))
  have hsmall : bonusAt self.config (weightOf obligation) < u192Bound :=
    Nat.lt_of_le_of_lt (bonusAt_le hconfig (weightOf_le obligation)) (by decide)
  unfold calculateBonus
  rw [if_neg (not_lt.mpr hunhealthy)]
  by_cases heq : obligation.unhealthyBorrowValue = obligation.superUnhealthyBorrowValue
  · have hweight : weightOf obligation = 0 := if_pos heq
    rw [hweight] at hcap hsmall ⊢
    simp only [bonusAt, zero_mul, Nat.zero_div, add_zero] at hcap hsmall ⊢
    rw [if_pos heq, bind_eq_ok_iff]
    exact ⟨_, Decimal.tryAdd_eq_ok_iff.mpr ⟨hsmall, rfl⟩, by rw [← hcap]; rfl⟩
  · have hweight : weightOf obligation = _ := if_neg heq
    obtain ⟨weight, hw⟩ : ∃ weight, bonusWeight
        ⟨obligation.borrowedValue.scaledVal - obligation.unhealthyBorrowValue.scaledVal⟩
        ⟨obligation.superUnhealthyBorrowValue.scaledVal -
          obligation.unhealthyBorrowValue.scaledVal⟩ = weight := ⟨_, rfl⟩
    rw [hw] at hweight
    rw [hweight] at hcap hsmall ⊢
    rw [if_neg heq]
    simp only [bind_eq_ok_iff, pure_eq_ok_iff, Decimal.trySub_eq_ok_iff, Decimal.tryMul_eq_ok_iff,
      Decimal.tryAdd_eq_ok_iff]
    have hrise := Nat.mul_le_mul_right percentScaler hconfig.bonus_le_max
    refine ⟨_, ⟨Decimal.le_iff.mp hunhealthy, rfl⟩, _, ⟨Decimal.le_iff.mp hthresholds, rfl⟩, _,
      ⟨hrise, rfl⟩, _, ⟨?_, rfl⟩, _, ⟨?_, rfl⟩, _, ⟨?_, rfl⟩, ?_⟩
    · rw [hw]
      have hpct := self.config.maxLiquidationBonus.toNat_lt
      have hle : weight.scaledVal ≤ wad := hw ▸ Decimal.le_iff.mp (bonusWeight_le _ _)
      refine Nat.lt_of_le_of_lt (Nat.mul_le_mul hle (Nat.sub_le _ _)) ?_
      refine Nat.lt_of_le_of_lt (Nat.mul_le_mul_left _ (Nat.mul_le_mul_right _ hpct.le)) ?_
      decide
    · rw [hw]
      exact Nat.lt_of_le_of_lt (Nat.le_add_right _ _) hsmall
    · rw [hw]
      exact hsmall
    · rw [hw]
      exact congrArg (Bonus.mk · _) hcap

/-- Only a healthy obligation that is not closeable is refused a bonus. -/
theorem exists_calculateBonus_iff (hconfig : ValidConfig self.config)
    (hthresholds : obligation.unhealthyBorrowValue ≤ obligation.superUnhealthyBorrowValue) :
    (∃ bonus, self.calculateBonus obligation = .ok bonus) ↔
      obligation.unhealthyBorrowValue ≤ obligation.borrowedValue ∨ obligation.closeable := by
  constructor
  · rintro ⟨bonus, hbonus⟩
    by_contra hneither
    obtain ⟨hhealthy, hcloseable⟩ := not_or.mp hneither
    rw [calculateBonus, if_pos (not_le.mp hhealthy), if_neg hcloseable] at hbonus
    cases hbonus
  · intro heither
    by_cases hover : obligation.unhealthyBorrowValue ≤ obligation.borrowedValue
    · exact ⟨_, calculateBonus_eq hconfig hthresholds hover⟩
    · have hcloseable := heither.resolve_left hover
      rw [calculateBonus, if_pos (not_le.mp hover), if_pos hcloseable]
      exact ⟨_, rfl⟩

/-- **The bonus.**  Under an accepted configuration a bonus is refused exactly to a healthy
obligation that is not closeable.  Between the same thresholds the larger debt has at
least the bonus of the smaller; it lies between the least and the highest of the
configuration, the protocol's part included, and is the highest at the second threshold. -/
theorem calculateBonus_mono (reserve : Reserve) (obligation obligation' : Obligation)
    (hconfig : validateReserveConfig reserve.config = .ok ())
    (hthresholds : obligation.unhealthyBorrowValue ≤ obligation.superUnhealthyBorrowValue)
    (hunhealthy : obligation'.unhealthyBorrowValue = obligation.unhealthyBorrowValue)
    (hsuper : obligation'.superUnhealthyBorrowValue = obligation.superUnhealthyBorrowValue)
    (hmore : obligation.borrowedValue ≤ obligation'.borrowedValue) :
    let fee := (Decimal.fromDecaBps reserve.config.protocolLiquidationFee).scaledVal
    let least := (Decimal.fromPercent reserve.config.liquidationBonus).scaledVal + fee
    let highest := (Decimal.fromPercent reserve.config.maxLiquidationBonus).scaledVal + fee
    ((∃ bonus, reserve.calculateBonus obligation = .ok bonus) ↔
        obligation.unhealthyBorrowValue ≤ obligation.borrowedValue ∨ obligation.closeable) ∧
      (obligation.unhealthyBorrowValue ≤ obligation.borrowedValue →
        ∃ bonus bonus', reserve.calculateBonus obligation = .ok bonus ∧
          reserve.calculateBonus obligation' = .ok bonus' ∧
            least ≤ bonus.totalBonus.scaledVal ∧ bonus.totalBonus ≤ bonus'.totalBonus ∧
              bonus'.totalBonus.scaledVal ≤ highest ∧
                (obligation.unhealthyBorrowValue < obligation.superUnhealthyBorrowValue →
                  obligation.superUnhealthyBorrowValue ≤ obligation'.borrowedValue →
                    bonus'.totalBonus.scaledVal = highest)) := by
  intro fee least highest
  have hvalid := validConfig_of_ok hconfig
  refine ⟨exists_calculateBonus_iff hvalid hthresholds, fun hover => ?_⟩
  have heq := calculateBonus_eq hvalid hthresholds hover
  have heq' : reserve.calculateBonus obligation' = _ := calculateBonus_eq hvalid
    (hunhealthy ▸ hsuper ▸ hthresholds) (hunhealthy ▸ hover.trans hmore)
  refine ⟨_, _, heq, heq', ?_, ?_, ?_, fun hlt hfar => ?_⟩
  · calc least = bonusAt reserve.config 0 := by simp [bonusAt, least, fee]
      _ ≤ bonusAt reserve.config (weightOf obligation) := bonusAt_mono _ (Nat.zero_le _)
  · exact Decimal.le_iff.mpr (bonusAt_mono _ (weightOf_mono hunhealthy hsuper hmore))
  · have htop := bonusAt_mono reserve.config (weightOf_le obligation')
    rwa [bonusAt_wad hvalid] at htop
  · dsimp only
    rw [weightOf_eq_wad hunhealthy hsuper hlt hfar, bonusAt_wad hvalid]
    rfl

/-- Half way between the thresholds, and beyond the second. -/
theorem calculateBonus_mono_half :
    let obligation := { Obligation.new ⟨5, Pubkey.default, Pubkey.default, [], []⟩ with
      borrowedValue := .ofNat 60, unhealthyBorrowValue := .ofNat 55,
      superUnhealthyBorrowValue := .ofNat 65 }
    let worse := { obligation with borrowedValue := .ofNat 90 }
    let reserve := plainReserve 1000 0 1000
    (∃ bonus bonus', reserve.calculateBonus obligation = .ok bonus ∧
      reserve.calculateBonus worse = .ok bonus' ∧ bonus.totalBonus ≤ bonus'.totalBonus) ∧
      reserve.calculateBonus obligation = .ok ⟨⟨85 * 10 ^ 15⟩, ⟨10 ^ 16⟩⟩ := by
  intro obligation worse reserve
  have hmono := calculateBonus_mono reserve obligation worse (by decide +kernel)
    (by decide) rfl rfl (by decide)
  obtain ⟨bonus, bonus', hbonus, hbonus', -, hle, -⟩ := hmono.2 (by decide)
  exact ⟨⟨bonus, bonus', hbonus, hbonus', hle⟩, by decide +kernel⟩

/-- A part `p` of what `a` is without a premium `t` above it, rounded up, and that amount,
rounded down, make up at most `a`. -/
theorem premium_le {w a p t : Nat} (hw : 0 < w) (hpt : p ≤ t) :
    (w - 1 + w * a * w / (w + t) * p / w) / w + a * w / (w + t) ≤ a := by
  obtain ⟨n, hn⟩ : ∃ n, w * a * w / (w + t) = n := ⟨_, rfl⟩
  obtain ⟨q, hq⟩ : ∃ q, a * w / (w + t) = q := ⟨_, rfl⟩
  obtain ⟨f, hf⟩ : ∃ f, n * p / w = f := ⟨_, rfl⟩
  rw [hn, hq, hf]
  have hqn : q * w ≤ n := by
    rw [← hn, ← hq, Nat.le_div_iff_mul_le (by omega)]
    calc a * w / (w + t) * w * (w + t) = a * w / (w + t) * (w + t) * w := by ring
      _ ≤ a * w * w := Nat.mul_le_mul_right _ (Nat.div_mul_le_self _ _)
      _ = w * a * w := by ring
  have hsum : n + f ≤ a * w := by
    refine Nat.le_of_mul_le_mul_right ?_ hw
    calc (n + f) * w = n * w + n * p / w * w := by rw [hf]; ring
      _ ≤ n * w + n * p := Nat.add_le_add_left (Nat.div_mul_le_self _ _) _
      _ ≤ n * w + n * t := Nat.add_le_add_left (Nat.mul_le_mul_left _ hpt) _
      _ = n * (w + t) := by ring
      _ ≤ w * a * w := hn ▸ Nat.div_mul_le_self _ _
      _ = a * w * w := by ring
  have hle : f ≤ (a - q) * w := by
    rw [Nat.sub_mul]
    omega
  have hqa : q * w ≤ a * w := by omega
  have hqa : q ≤ a := Nat.le_of_mul_le_mul_right hqa hw
  have hceil : (w - 1 + f) / w ≤ a - q := by
    refine Nat.le_of_lt_succ ((Nat.div_lt_iff_lt_mul hw).mpr ?_)
    rw [Nat.succ_mul]
    omega
  omega

/-- The premium itself is not all of it. -/
theorem without_premium_lt {w a t : Nat} (ha : 0 < a) (ht : 0 < t) : a * w / (w + t) < a := by
  rw [Nat.div_lt_iff_lt_mul (by omega)]
  exact Nat.mul_lt_mul_of_pos_left (by omega) ha

/-- A bonus was computed between thresholds that are in order. -/
theorem thresholds_of_calculateBonus (hbonus : self.calculateBonus obligation = .ok bonus)
    (hover : obligation.unhealthyBorrowValue ≤ obligation.borrowedValue) :
    obligation.unhealthyBorrowValue ≤ obligation.superUnhealthyBorrowValue := by
  rw [calculateBonus, if_neg (not_lt.mpr hover)] at hbonus
  by_cases heq : obligation.unhealthyBorrowValue = obligation.superUnhealthyBorrowValue
  · exact heq.le
  · simp only [if_neg heq, bind_eq_ok_iff, Decimal.trySub_eq_ok_iff] at hbonus
    obtain ⟨_, -, _, ⟨hle, -⟩, -⟩ := hbonus
    exact Decimal.le_iff.mpr hle

/-- The protocol's part of a bonus above zero, and the cap. -/
theorem calculateBonus_parts (hconfig : ValidConfig self.config)
    (hbonus : self.calculateBonus obligation = .ok bonus) (hpos : Decimal.zero < bonus.totalBonus) :
    bonus.protocolLiquidationFee ≤ bonus.totalBonus ∧
      bonus.totalBonus ≤ .fromPercent maxBonusPct := by
  by_cases hover : obligation.unhealthyBorrowValue ≤ obligation.borrowedValue
  · rw [calculateBonus_eq hconfig (thresholds_of_calculateBonus hbonus hover) hover] at hbonus
    obtain rfl := Except.ok.inj hbonus
    exact ⟨Decimal.le_iff.mpr (Nat.le_add_left _ _),
      Decimal.le_iff.mpr (bonusAt_le hconfig (weightOf_le obligation))⟩
  · rw [calculateBonus, if_pos (not_le.mp hover)] at hbonus
    split at hbonus
    · obtain rfl := Except.ok.inj hbonus
      exact absurd hpos (lt_irrefl _)
    · cases hbonus

/-- Nothing on the way to the fee leaves 192 bits. -/
theorem protocolFee_fits {amount total part : Nat} (hamount : amount ≤ 2 ^ 64)
    (hpart : part ≤ total) (htotal : total ≤ 25 * percentScaler) :
    wad * amount * wad / (wad + total) * part + wad < u192Bound := by
  have hnonbonus : wad * amount * wad / (wad + total) ≤ wad * amount := by
    refine Nat.div_le_of_le_mul ?_
    rw [mul_comm (wad + total)]
    exact Nat.mul_le_mul_left _ (Nat.le_add_right _ _)
  calc wad * amount * wad / (wad + total) * part + wad
      ≤ wad * 2 ^ 64 * (25 * percentScaler) + wad :=
        Nat.add_le_add_right (Nat.mul_le_mul (hnonbonus.trans (Nat.mul_le_mul_left _ hamount))
          (hpart.trans htotal)) _
    _ < u192Bound := by decide

/-- **The protocol's part.**  Whatever the amount: with a bonus of `calculate_bonus` above
zero the fee can be computed, is at least one token, and leaves the liquidator what it
repaid. -/
theorem protocolLiquidationFee_le (reserve : Reserve) (obligation : Obligation) (bonus : Bonus)
    (amount : UInt64) (hconfig : validateReserveConfig reserve.config = .ok ())
    (hbonus : reserve.calculateBonus obligation = .ok bonus)
    (hpos : Decimal.zero < bonus.totalBonus)
    (hamount : 0 < amount) :
    ∃ fee, calculateProtocolLiquidationFee amount bonus = .ok fee ∧ 0 < fee ∧
      fee.toNat + amount.toNat * wad / (wad + bonus.totalBonus.scaledVal) ≤ amount.toNat := by
  obtain ⟨hpart, hcap⟩ :=
    calculateBonus_parts (validConfig_of_ok hconfig) hbonus hpos
  obtain ⟨t, ht⟩ : ∃ t, bonus.totalBonus.scaledVal = t := ⟨_, rfl⟩
  obtain ⟨p, hp⟩ : ∃ p, bonus.protocolLiquidationFee.scaledVal = p := ⟨_, rfl⟩
  have hbound : t ≤ 25 * percentScaler := by
    rw [← ht]
    exact Decimal.le_iff.mp hcap
  have hpt : p ≤ t := by
    rw [← ht, ← hp]
    exact Decimal.le_iff.mp hpart
  have htpos : 0 < t := by
    rw [← ht]
    exact Decimal.lt_iff.mp hpos
  have hsum := premium_le (a := amount.toNat) wad_pos hpt
  have hapos : 0 < amount.toNat := UInt64.lt_iff_toNat_lt.mp hamount
  have hone := without_premium_lt (w := wad) hapos htpos
  have hlt := amount.toNat_lt
  obtain ⟨n, hn⟩ : ∃ n, wad * amount.toNat * wad / (wad + t) = n := ⟨_, rfl⟩
  obtain ⟨q, hq⟩ : ∃ q, amount.toNat * wad / (wad + t) = q := ⟨_, rfl⟩
  rw [hn, hq] at hsum
  rw [hq] at hone
  obtain ⟨fee, hfee⟩ : ∃ fee : UInt64, (wad - 1 + n * p / wad) / wad = fee.toNat := by
    have hword : (wad - 1 + n * p / wad) / wad < 2 ^ 64 :=
      Nat.lt_of_le_of_lt ((Nat.le_add_right _ _).trans hsum) hlt
    exact ⟨UInt64.ofNat _, (UInt64.toNat_ofNat_of_lt' hword).symm⟩
  rw [hfee] at hsum
  have hfits := protocolFee_fits hlt.le hpt hbound
  rw [hn] at hfits
  rw [ht, hq]
  refine ⟨max fee 1, ?_, ?_, ?_⟩
  · simp only [calculateProtocolLiquidationFee, bind_eq_ok_iff, refuseIf_eq_ok_iff, exists_const,
      pure_eq_ok_iff, Decimal.tryAdd_eq_ok_iff, Decimal.tryDiv_eq_ok_iff, Decimal.tryMul_eq_ok_iff,
      Decimal.tryCeilU64_eq_ok_iff, Decimal.ofNat_scaledVal, Decimal.one_scaledVal, ht, hp]
    refine ⟨not_lt.mpr hcap, ⟨wad + t⟩, ⟨?_, rfl⟩, ⟨n⟩, ⟨?_, ?_, congrArg _ hn⟩, ⟨n * p / wad⟩,
      ⟨?_, rfl⟩, fee, ⟨?_, hfee⟩, rfl⟩
    · exact Nat.lt_of_le_of_lt (Nat.add_le_add_left hbound _) (by decide)
    · refine Nat.lt_of_le_of_lt (Nat.mul_le_mul_right _ (Nat.mul_le_mul_left _ hlt.le)) ?_
      decide
    · dsimp only
      omega
    · dsimp only
      omega
    · calc wad - 1 + n * p / wad ≤ wad + n * p :=
            Nat.add_le_add (Nat.sub_le _ _) (Nat.div_le_self _ _)
        _ = n * p + wad := Nat.add_comm _ _
        _ < u192Bound := hfits
  · rw [UInt64.lt_iff_toNat_lt, toNat_max]
    exact Nat.lt_of_lt_of_le Nat.zero_lt_one (Nat.le_max_right _ _)
  · rw [toNat_max, show UInt64.toNat 1 = 1 from rfl]
    omega

/-- A thousand tokens taken at a bonus of 6 percent, 1 of them for the protocol. -/
theorem protocolLiquidationFee_le_thousand :
    ∃ fee, calculateProtocolLiquidationFee 1000 ⟨⟨6 * percentScaler⟩, ⟨percentScaler⟩⟩ = .ok fee ∧
      0 < fee ∧ fee.toNat + 943 ≤ 1000 := by
  obtain ⟨fee, hfee, hpos, hle⟩ := protocolLiquidationFee_le (plainReserve 1000 0 1000)
    { Obligation.new ⟨5, Pubkey.default, Pubkey.default, [], []⟩ with
      borrowedValue := .ofNat 60, unhealthyBorrowValue := .ofNat 60,
      superUnhealthyBorrowValue := .ofNat 70 } ⟨⟨6 * percentScaler⟩, ⟨percentScaler⟩⟩ 1000
    (by decide +kernel) (by decide +kernel) (by decide) (by decide)
  exact ⟨fee, hfee, hpos, hle⟩

/-! ## What is taken for what is repaid -/

/-- A liquidation of `amount` is worth at most `value`, bonus included, in a debt of
`borrowed` worth `marketValue`. -/
def WorthAtMost (liquidity : ObligationLiquidity) (bonusRate amount value : Nat) : Prop :=
  value * liquidity.borrowedAmountWads.scaledVal * wad ≤
    liquidity.marketValue.scaledVal * amount * bonusRate

/-- What a liquidation of `amount`, at least, leaves to be booked.  The collateral taken is
worth what is settled, and the bonus, but for one unit of `10^-18` and one `10^-18`th of
the debt, except that of a debt worth at most one a single token is always taken. -/
structure Taken (liquidity : ObligationLiquidity) (collateral : ObligationCollateral)
    (bonusRate amount : Nat) (result : CalculateLiquidationResult) : Prop where
  settle_le : result.settleAmount.scaledVal ≤ amount
  covers : result.settleAmount.scaledVal ≤ wad * result.repayAmount.toNat
  covers_lt : wad * result.repayAmount.toNat < result.settleAmount.scaledVal + wad
  withdraw_le : result.withdrawAmount.toNat ≤ collateral.depositedAmount.toNat ∨
    liquidity.marketValue ≤ .one ∧ result.withdrawAmount = 1
  worth : result.withdrawAmount.toNat * collateral.marketValue.scaledVal *
      (liquidity.borrowedAmountWads.scaledVal * wad * wad) ≤
        collateral.depositedAmount.toNat * liquidity.marketValue.scaledVal * bonusRate *
          (result.settleAmount.scaledVal * wad + wad + amount) ∨
    liquidity.marketValue ≤ .one ∧ result.withdrawAmount = 1

section Taken

variable {liquidity : ObligationLiquidity} {collateral : ObligationCollateral}
  {bonusRate amount value : Decimal} {result : CalculateLiquidationResult}

/-- Tokens rounded up. -/
theorem covers_of_ceil {settle : Decimal} {repay : UInt64} (h : settle.tryCeilU64 = .ok repay) :
    settle.scaledVal ≤ wad * repay.toNat ∧ wad * repay.toNat < settle.scaledVal + wad := by
  obtain ⟨-, hrepay⟩ := Decimal.tryCeilU64_eq_ok_iff.mp h
  have hle := Nat.mul_div_le (wad - 1 + settle.scaledVal) wad
  have hlt := Nat.lt_mul_div_succ (wad - 1 + settle.scaledVal) wad_pos
  have := wad_pos
  rw [hrepay] at hle hlt
  rw [Nat.mul_succ] at hlt
  omega

theorem withdrawPart_of_ok {pct : Decimal} {part : UInt64}
    (h : withdrawPart collateral pct = .ok part) :
    part.toNat * wad ≤ collateral.depositedAmount.toNat * pct.scaledVal := by
  simp only [withdrawPart, bind_eq_ok_iff, Decimal.tryMul_eq_ok_iff, Decimal.tryFloorU64_eq_ok_iff,
    Decimal.ofNat_scaledVal] at h
  obtain ⟨_, ⟨-, rfl⟩, hpart⟩ := h
  rw [← hpart, mul_assoc wad, Nat.mul_div_cancel_left _ wad_pos]
  exact Nat.div_mul_le_self _ _

/-- The collateral covers the liquidation: a part of it is taken. -/
theorem part_le {pct : Decimal} {part : UInt64} (hvalue : value < collateral.marketValue)
    (hpct : value.tryDiv collateral.marketValue = .ok pct)
    (hpart : withdrawPart collateral pct = .ok part) :
    part.toNat ≤ collateral.depositedAmount.toNat ∧
      part.toNat * collateral.marketValue.scaledVal ≤
        collateral.depositedAmount.toNat * value.scaledVal := by
  obtain ⟨-, -, rfl⟩ := Decimal.tryDiv_eq_ok_iff.mp hpct
  have hle := withdrawPart_of_ok hpart
  dsimp only at hle
  constructor
  · have hshare := share_le (w := wad) (Decimal.lt_iff.mp hvalue).le
    exact Nat.le_of_mul_le_mul_right (hle.trans (Nat.mul_le_mul_left _ hshare)) wad_pos
  · refine Nat.le_of_mul_le_mul_right ?_ wad_pos
    calc part.toNat * collateral.marketValue.scaledVal * wad
        = part.toNat * wad * collateral.marketValue.scaledVal := by ring
      _ ≤ collateral.depositedAmount.toNat *
          (value.scaledVal * wad / collateral.marketValue.scaledVal) *
            collateral.marketValue.scaledVal := Nat.mul_le_mul_right _ hle
      _ = collateral.depositedAmount.toNat *
          (value.scaledVal * wad / collateral.marketValue.scaledVal *
            collateral.marketValue.scaledVal) := by ring
      _ ≤ collateral.depositedAmount.toNat * (value.scaledVal * wad) :=
        Nat.mul_le_mul_left _ (Nat.div_mul_le_self _ _)
      _ = collateral.depositedAmount.toNat * value.scaledVal * wad := by ring

/-- All of the amount is settled, for collateral worth at most the liquidation. -/
theorem Taken.of_whole {repay withdraw : UInt64} (hrepay : amount.tryCeilU64 = .ok repay)
    (hworth : WorthAtMost liquidity bonusRate.scaledVal amount.scaledVal value.scaledVal)
    (hle : withdraw.toNat ≤ collateral.depositedAmount.toNat)
    (htaken : withdraw.toNat * collateral.marketValue.scaledVal ≤
      collateral.depositedAmount.toNat * value.scaledVal) :
    Taken liquidity collateral bonusRate.scaledVal amount.scaledVal ⟨amount, repay, withdraw⟩ := by
  obtain ⟨hcovers, hlt⟩ := covers_of_ceil hrepay
  refine ⟨Nat.le_refl _, hcovers, hlt, Or.inl hle, Or.inl ?_⟩
  dsimp only
  calc withdraw.toNat * collateral.marketValue.scaledVal *
        (liquidity.borrowedAmountWads.scaledVal * wad * wad)
      ≤ collateral.depositedAmount.toNat * value.scaledVal *
        (liquidity.borrowedAmountWads.scaledVal * wad * wad) := Nat.mul_le_mul_right _ htaken
    _ = collateral.depositedAmount.toNat *
        (value.scaledVal * liquidity.borrowedAmountWads.scaledVal * wad) * wad := by ring
    _ ≤ collateral.depositedAmount.toNat *
        (liquidity.marketValue.scaledVal * amount.scaledVal * bonusRate.scaledVal) * wad :=
      Nat.mul_le_mul_right _ (Nat.mul_le_mul_left _ hworth)
    _ = collateral.depositedAmount.toNat * liquidity.marketValue.scaledVal * bonusRate.scaledVal *
        (amount.scaledVal * wad) := by ring
    _ ≤ _ := Nat.mul_le_mul_left _ (by omega)

/-- The collateral does not cover the liquidation: all of it is taken, and a part of the
amount is settled. -/
theorem Taken.of_short {pct settle : Decimal} {repay : UInt64}
    (hvalue : collateral.marketValue < value)
    (hworth : WorthAtMost liquidity bonusRate.scaledVal amount.scaledVal value.scaledVal)
    (hpct : collateral.marketValue.tryDiv value = .ok pct)
    (hsettle : amount.tryMul pct = .ok settle) (hrepay : settle.tryCeilU64 = .ok repay) :
    Taken liquidity collateral bonusRate.scaledVal amount.scaledVal
      ⟨settle, repay, collateral.depositedAmount⟩ := by
  obtain ⟨-, hpos, rfl⟩ := Decimal.tryDiv_eq_ok_iff.mp hpct
  obtain ⟨-, rfl⟩ := Decimal.tryMul_eq_ok_iff.mp hsettle
  obtain ⟨hcovers, hlt⟩ := covers_of_ceil hrepay
  have hshare := share_le (w := wad) (Decimal.lt_iff.mp hvalue).le
  refine ⟨mul_div_le hshare, hcovers, hlt, Or.inl (Nat.le_refl _), Or.inl ?_⟩
  have hoff := lt_share_of_share (v := collateral.marketValue.scaledVal)
    (x := amount.scaledVal) wad_pos (Nat.pos_of_ne_zero hpos) rfl
  dsimp only at hoff ⊢
  obtain ⟨s, hs⟩ : ∃ s, amount.scaledVal *
    (collateral.marketValue.scaledVal * wad / value.scaledVal) / wad = s := ⟨_, rfl⟩
  rw [hs] at hoff ⊢
  unfold WorthAtMost at hworth
  rcases Nat.eq_zero_or_pos amount.scaledVal with hzero | hamount
  · have hnone : liquidity.borrowedAmountWads.scaledVal = 0 := by
      rw [hzero, mul_zero, zero_mul, Nat.le_zero, Nat.mul_eq_zero, Nat.mul_eq_zero] at hworth
      have := wad_pos
      omega
    rw [hnone]
    simp
  · have hbound : collateral.marketValue.scaledVal *
        (liquidity.borrowedAmountWads.scaledVal * wad * wad) ≤
          liquidity.marketValue.scaledVal * bonusRate.scaledVal *
            (s * wad + wad + amount.scaledVal) := by
      refine Nat.le_of_mul_le_mul_right ?_ hamount
      calc collateral.marketValue.scaledVal *
            (liquidity.borrowedAmountWads.scaledVal * wad * wad) * amount.scaledVal
          = collateral.marketValue.scaledVal * wad * amount.scaledVal *
            (liquidity.borrowedAmountWads.scaledVal * wad) := by ring
        _ ≤ ((s + 1) * wad + amount.scaledVal) * value.scaledVal *
            (liquidity.borrowedAmountWads.scaledVal * wad) := Nat.mul_le_mul_right _ hoff.le
        _ = (s * wad + wad + amount.scaledVal) *
            (value.scaledVal * liquidity.borrowedAmountWads.scaledVal * wad) := by ring
        _ ≤ (s * wad + wad + amount.scaledVal) *
            (liquidity.marketValue.scaledVal * amount.scaledVal * bonusRate.scaledVal) :=
          Nat.mul_le_mul_left _ hworth
        _ = liquidity.marketValue.scaledVal * bonusRate.scaledVal *
            (s * wad + wad + amount.scaledVal) * amount.scaledVal := by ring
    calc collateral.depositedAmount.toNat * collateral.marketValue.scaledVal *
          (liquidity.borrowedAmountWads.scaledVal * wad * wad)
        = collateral.depositedAmount.toNat * (collateral.marketValue.scaledVal *
          (liquidity.borrowedAmountWads.scaledVal * wad * wad)) := by ring
      _ ≤ collateral.depositedAmount.toNat * (liquidity.marketValue.scaledVal *
          bonusRate.scaledVal * (s * wad + wad + amount.scaledVal)) :=
        Nat.mul_le_mul_left _ hbound
      _ = _ := by ring

/-- The three ways, given the last. -/
theorem liquidateAgainst_taken {withdraw : Decimal → UInt64 → Except LendingError UInt64}
    (hworth : WorthAtMost liquidity bonusRate.scaledVal amount.scaledVal value.scaledVal)
    (hpart : ∀ {pct repay part}, value < collateral.marketValue →
      value.tryDiv collateral.marketValue = .ok pct → amount.tryCeilU64 = .ok repay →
        withdraw pct repay = .ok part →
          Taken liquidity collateral bonusRate.scaledVal amount.scaledVal ⟨amount, repay, part⟩)
    (h : liquidateAgainst collateral amount value withdraw = .ok result) :
    Taken liquidity collateral bonusRate.scaledVal amount.scaledVal result := by
  unfold liquidateAgainst at h
  cases horder : compare value collateral.marketValue with
  | gt =>
    simp only [horder, bind_eq_ok_iff, pure_eq_ok_iff] at h
    obtain ⟨pct, hpct, settle, hsettle, repay, hrepay, rfl⟩ := h
    exact .of_short (compare_gt_iff_gt.mp horder) hworth hpct hsettle hrepay
  | eq =>
    simp only [horder, bind_eq_ok_iff, pure_eq_ok_iff] at h
    obtain ⟨repay, hrepay, rfl⟩ := h
    refine .of_whole hrepay hworth (Nat.le_refl _) (Nat.mul_le_mul_left _ ?_)
    rw [compare_eq_iff_eq.mp horder]
  | lt =>
    simp only [horder, bind_eq_ok_iff, pure_eq_ok_iff] at h
    obtain ⟨pct, hpct, repay, hrepay, part, hwithdraw, rfl⟩ := h
    exact hpart (compare_lt_iff_lt.mp horder) hpct hrepay hwithdraw

theorem liquidateDust_taken (hdust : liquidity.marketValue ≤ .one)
    (h : liquidateDust liquidity collateral bonusRate = .ok result) :
    Taken liquidity collateral bonusRate.scaledVal liquidity.borrowedAmountWads.scaledVal
      result := by
  simp only [liquidateDust, bind_eq_ok_iff, Decimal.tryMul_eq_ok_iff] at h
  obtain ⟨value, ⟨-, hvalue⟩, h⟩ := h
  have hworth : WorthAtMost liquidity bonusRate.scaledVal liquidity.borrowedAmountWads.scaledVal
      value.scaledVal := by
    rw [← hvalue]
    calc liquidity.marketValue.scaledVal * bonusRate.scaledVal / wad *
          liquidity.borrowedAmountWads.scaledVal * wad
        = liquidity.marketValue.scaledVal * bonusRate.scaledVal / wad * wad *
          liquidity.borrowedAmountWads.scaledVal := by ring
      _ ≤ liquidity.marketValue.scaledVal * bonusRate.scaledVal *
          liquidity.borrowedAmountWads.scaledVal :=
        Nat.mul_le_mul_right _ (Nat.div_mul_le_self _ _)
      _ = _ := by ring
  refine liquidateAgainst_taken hworth (fun {pct repay part} hcovered hpct hrepay hpart => ?_) h
  simp only [bind_eq_ok_iff, refuseIf_eq_ok_iff, exists_const, pure_eq_ok_iff] at hpart
  obtain ⟨-, floor, hfloor, rfl⟩ := hpart
  obtain ⟨hle, htaken⟩ := part_le hcovered hpct hfloor
  by_cases hzero : floor ≤ 1
  · have hone : max floor 1 = 1 := if_pos hzero
    rw [hone]
    obtain ⟨hcovers, hlt⟩ := covers_of_ceil hrepay
    exact ⟨Nat.le_refl _, hcovers, hlt, Or.inr ⟨hdust, rfl⟩, Or.inr ⟨hdust, rfl⟩⟩
  · have hmax : max floor 1 = floor := if_neg hzero
    rw [hmax]
    exact .of_whole hrepay hworth hle htaken

variable {obligation : Obligation} {maxAmount : Decimal}

/-- At most a fifth of all that is borrowed, and at most 500000, by value. -/
theorem maxLiquidationAmount_le (h : obligation.maxLiquidationAmount liquidity = .ok amount) :
    amount.scaledVal * liquidity.marketValue.scaledVal * 5 ≤
        liquidity.borrowedAmountWads.scaledVal * obligation.borrowedValue.scaledVal ∧
      amount.scaledVal * liquidity.marketValue.scaledVal ≤
        liquidity.borrowedAmountWads.scaledVal * (wad * maxLiquidatableValueAtOnce) := by
  simp only [Obligation.maxLiquidationAmount, bind_eq_ok_iff, Decimal.tryMulRate_eq_ok_iff,
    Decimal.tryDiv_eq_ok_iff, Decimal.tryMul_eq_ok_iff, Decimal.min_scaledVal] at h
  obtain ⟨close, ⟨-, rfl⟩, pct, ⟨-, -, rfl⟩, -, rfl⟩ := h
  dsimp only
  obtain ⟨v, hv⟩ : ∃ v, min (min (obligation.borrowedValue.scaledVal *
      (Rate.fromPercent liquidationCloseFactor).scaledVal / wad) liquidity.marketValue.scaledVal)
      (Decimal.ofNat maxLiquidatableValueAtOnce).scaledVal = v := ⟨_, rfl⟩
  rw [hv]
  have hamount : liquidity.borrowedAmountWads.scaledVal *
      (v * wad / liquidity.marketValue.scaledVal) / wad * liquidity.marketValue.scaledVal ≤
        liquidity.borrowedAmountWads.scaledVal * v := by
    refine Nat.le_of_mul_le_mul_right ?_ wad_pos
    calc liquidity.borrowedAmountWads.scaledVal *
          (v * wad / liquidity.marketValue.scaledVal) / wad * liquidity.marketValue.scaledVal * wad
        = liquidity.borrowedAmountWads.scaledVal *
          (v * wad / liquidity.marketValue.scaledVal) / wad * wad *
            liquidity.marketValue.scaledVal := by ring
      _ ≤ liquidity.borrowedAmountWads.scaledVal *
          (v * wad / liquidity.marketValue.scaledVal) * liquidity.marketValue.scaledVal :=
        Nat.mul_le_mul_right _ (Nat.div_mul_le_self _ _)
      _ = liquidity.borrowedAmountWads.scaledVal *
          (v * wad / liquidity.marketValue.scaledVal * liquidity.marketValue.scaledVal) := by ring
      _ ≤ liquidity.borrowedAmountWads.scaledVal * (v * wad) :=
        Nat.mul_le_mul_left _ (Nat.div_mul_le_self _ _)
      _ = liquidity.borrowedAmountWads.scaledVal * v * wad := by ring
  have hfifth : v * 5 ≤ obligation.borrowedValue.scaledVal := by
    have hclose : v ≤ obligation.borrowedValue.scaledVal * (20 * percentScaler) / wad :=
      hv ▸ (Nat.min_le_left _ _).trans (Nat.min_le_left _ _)
    rw [Nat.le_div_iff_mul_le wad_pos] at hclose
    have hscale : wad = 5 * (20 * percentScaler) := by decide
    rw [hscale, ← mul_assoc] at hclose
    exact Nat.le_of_mul_le_mul_right hclose (by decide)
  have hcap : v ≤ wad * maxLiquidatableValueAtOnce := hv ▸ Nat.min_le_right _ _
  constructor
  · calc _ ≤ liquidity.borrowedAmountWads.scaledVal * v * 5 := Nat.mul_le_mul_right _ hamount
      _ = liquidity.borrowedAmountWads.scaledVal * (v * 5) := by ring
      _ ≤ _ := Nat.mul_le_mul_left _ hfifth
  · exact hamount.trans (Nat.mul_le_mul_left _ hcap)

/-- The amount of a partial liquidation, and what is taken for it. -/
theorem liquidatePart_taken
    (h : liquidatePart obligation liquidity collateral bonusRate maxAmount = .ok result) :
    ∃ limit : Decimal, obligation.maxLiquidationAmount liquidity = .ok limit ∧
      Taken liquidity collateral bonusRate.scaledVal (min limit maxAmount).scaledVal result := by
  simp only [liquidatePart, bind_eq_ok_iff, Decimal.tryMul_eq_ok_iff,
    Decimal.tryDiv_eq_ok_iff] at h
  obtain ⟨limit, hlimit, pct, ⟨-, -, hpct⟩, part, ⟨-, hpart⟩, value, ⟨-, hvalue⟩, h⟩ := h
  have hworth : WorthAtMost liquidity bonusRate.scaledVal (min limit maxAmount).scaledVal
      value.scaledVal := by
    unfold WorthAtMost
    rw [← hvalue, ← hpart, ← hpct]
    dsimp only
    obtain ⟨x, hx⟩ : ∃ x, (min limit maxAmount).scaledVal = x := ⟨_, rfl⟩
    rw [hx]
    obtain ⟨q, hq⟩ : ∃ q, x * wad / liquidity.borrowedAmountWads.scaledVal = q := ⟨_, rfl⟩
    have hqle : q * liquidity.borrowedAmountWads.scaledVal ≤ x * wad :=
      hq ▸ Nat.div_mul_le_self _ _
    rw [hq]
    refine Nat.le_of_mul_le_mul_right ?_ wad_pos
    calc liquidity.marketValue.scaledVal * q / wad * bonusRate.scaledVal / wad *
          liquidity.borrowedAmountWads.scaledVal * wad * wad
        = liquidity.marketValue.scaledVal * q / wad * bonusRate.scaledVal / wad * wad *
          (liquidity.borrowedAmountWads.scaledVal * wad) := by ring
      _ ≤ liquidity.marketValue.scaledVal * q / wad * bonusRate.scaledVal *
          (liquidity.borrowedAmountWads.scaledVal * wad) :=
        Nat.mul_le_mul_right _ (Nat.div_mul_le_self _ _)
      _ = liquidity.marketValue.scaledVal * q / wad * wad *
          (bonusRate.scaledVal * liquidity.borrowedAmountWads.scaledVal) := by ring
      _ ≤ liquidity.marketValue.scaledVal * q *
          (bonusRate.scaledVal * liquidity.borrowedAmountWads.scaledVal) :=
        Nat.mul_le_mul_right _ (Nat.div_mul_le_self _ _)
      _ = liquidity.marketValue.scaledVal * bonusRate.scaledVal *
          (q * liquidity.borrowedAmountWads.scaledVal) := by ring
      _ ≤ liquidity.marketValue.scaledVal * bonusRate.scaledVal * (x * wad) :=
        Nat.mul_le_mul_left _ hqle
      _ = liquidity.marketValue.scaledVal * x * bonusRate.scaledVal * wad := by ring
  refine ⟨limit, hlimit, liquidateAgainst_taken hworth ?_ h⟩
  intro pct repay part hcovered hpct hrepay hfloor
  obtain ⟨hle, htaken⟩ := part_le hcovered hpct hfloor
  exact .of_whole hrepay hworth hle htaken

theorem Taken.mono {rate a b : Nat} (h : Taken liquidity collateral rate a result) (hab : a ≤ b) :
    Taken liquidity collateral rate b result :=
  ⟨h.settle_le.trans hab, h.covers, h.covers_lt, h.withdraw_le,
    h.worth.imp_left fun hworth => hworth.trans (Nat.mul_le_mul_left _ (by omega))⟩

end Taken

/-- What is settled, as a part of the debt. -/
theorem calculateLiquidation_taken {amount : UInt64} {obligation : Obligation}
    {liquidity : ObligationLiquidity} {collateral : ObligationCollateral} {bonus : Bonus}
    {result : CalculateLiquidationResult}
    (h : calculateLiquidation amount obligation liquidity collateral bonus = .ok result) :
    Taken liquidity collateral (bonus.totalBonus.scaledVal + wad)
      liquidity.borrowedAmountWads.scaledVal result := by
  simp only [calculateLiquidation, bind_eq_ok_iff, refuseIf_eq_ok_iff, exists_const,
    Decimal.tryAdd_eq_ok_iff, Decimal.one_scaledVal] at h
  obtain ⟨-, rate, ⟨-, hrate⟩, h⟩ := h
  have hrate : rate.scaledVal = bonus.totalBonus.scaledVal + wad := by rw [← hrate]
  rw [← hrate]
  split at h
  · next hdust => exact liquidateDust_taken hdust h
  · obtain ⟨limit, -, htaken⟩ := liquidatePart_taken h
    refine htaken.mono ?_
    rw [Decimal.min_scaledVal]
    refine (Nat.min_le_right _ _).trans ?_
    split
    · exact Nat.le_refl _
    · rw [Decimal.min_scaledVal]
      exact Nat.min_le_right _ _

/-- **A fair price.**  Whatever is asked for: a liquidation settles no more than the debt
and brings in the tokens for it, takes no more collateral than there is, and no more than
what it settles is worth with the bonus.  Unless the debt is worth at most one, it
settles no more than was asked for, a fifth of all that is borrowed, and 500000. -/
theorem calculateLiquidation_fair (amount : UInt64) (obligation : Obligation)
    (liquidity : ObligationLiquidity) (collateral : ObligationCollateral) (bonus : Bonus)
    (result : CalculateLiquidationResult)
    (h : calculateLiquidation amount obligation liquidity collateral bonus = .ok result) :
    Taken liquidity collateral (bonus.totalBonus.scaledVal + wad)
        liquidity.borrowedAmountWads.scaledVal result ∧
      (Decimal.one < liquidity.marketValue →
        (amount.toNat ≠ u64Max → result.settleAmount.scaledVal ≤ wad * amount.toNat) ∧
          result.settleAmount.scaledVal * liquidity.marketValue.scaledVal * 5 ≤
            liquidity.borrowedAmountWads.scaledVal * obligation.borrowedValue.scaledVal ∧
          result.settleAmount.scaledVal * liquidity.marketValue.scaledVal ≤
            liquidity.borrowedAmountWads.scaledVal * (wad * maxLiquidatableValueAtOnce)) := by
  refine ⟨calculateLiquidation_taken h, fun hlarge => ?_⟩
  simp only [calculateLiquidation, bind_eq_ok_iff, if_neg (not_le.mpr hlarge)] at h
  obtain ⟨-, -, rate, -, h⟩ := h
  obtain ⟨limit, hlimit, htaken⟩ := liquidatePart_taken h
  obtain ⟨hfifth, hcap⟩ := maxLiquidationAmount_le hlimit
  have hsettle := htaken.settle_le
  rw [Decimal.min_scaledVal, Nat.le_min] at hsettle
  have hvalue := Nat.mul_le_mul_right liquidity.marketValue.scaledVal hsettle.1
  refine ⟨fun hasked => ?_, (Nat.mul_le_mul_right 5 hvalue).trans hfifth, hvalue.trans hcap⟩
  rw [if_neg hasked, Decimal.min_scaledVal, Nat.le_min] at hsettle
  exact hsettle.2.1

/-- A debt of a thousand, worth as much, against 900 of collateral worth 1800. -/
theorem calculateLiquidation_fair_thousand :
    let liquidity : ObligationLiquidity := ⟨Pubkey.default, .one, .ofNat 1000, .ofNat 1000⟩
    let collateral : ObligationCollateral := ⟨Pubkey.default, 900, .ofNat 1800, .zero⟩
    let obligation := { Obligation.new ⟨5, Pubkey.default, Pubkey.default, [collateral],
      [liquidity]⟩ with borrowedValue := .ofNat 1000 }
    let result : CalculateLiquidationResult := ⟨.ofNat 200, 200, 104⟩
    calculateLiquidation 600 obligation liquidity collateral ⟨⟨5 * percentScaler⟩, .zero⟩ =
        .ok result ∧
      Taken liquidity collateral (5 * percentScaler + wad) (wad * 1000) result := by
  intro liquidity collateral obligation result
  have hresult : calculateLiquidation 600 obligation liquidity collateral
      ⟨⟨5 * percentScaler⟩, .zero⟩ = .ok result := by decide +kernel
  exact ⟨hresult, (calculateLiquidation_fair 600 obligation liquidity collateral
    ⟨⟨5 * percentScaler⟩, .zero⟩ result hresult).1⟩

/-! ## Booking it -/

theorem exists_settleAt {α : Type} {entries : List α} {index : Nat} {entry : α} (all : α → Bool)
    (take : α → Except LendingError α) (hentry : entries[index]? = some entry)
    (h : ¬ all entry → ∃ changed, take entry = .ok changed) :
    ∃ after, settleAt entries index all take = some (.ok after) := by
  by_cases hall : all entry
  · exact ⟨entries.eraseIdx index, by simp [settleAt, hentry, hall]⟩
  · obtain ⟨changed, htake⟩ := h hall
    exact ⟨entries.set index changed, by simp [settleAt, hentry, hall, htake]⟩

theorem sum_repaid {borrows after : List ObligationLiquidity} {index : Nat}
    {amount : Decimal}
    (h : settleAt borrows index (fun l => amount = l.borrowedAmountWads) (·.repay amount) =
      some (.ok after)) :
    (after.map fun l => (l.borrowedAmountWads.scaledVal : Int)).sum =
      (borrows.map fun l => (l.borrowedAmountWads.scaledVal : Int)).sum - amount.scaledVal := by
  obtain ⟨entry, -, ⟨hall, hsum⟩ | ⟨changed, hrepay, hsum⟩⟩ :=
    sum_settleAt (fun l => (l.borrowedAmountWads.scaledVal : Int)) h
  · rw [hsum, of_decide_eq_true hall]
  · obtain ⟨hle, rfl⟩ := ObligationLiquidity.repay_eq_ok_iff.mp hrepay
    rw [hsum]
    push_cast [Nat.cast_sub hle]
    ring

theorem sum_withdrawn {deposits after : List ObligationCollateral} {index : Nat}
    {amount : UInt64}
    (h : settleAt deposits index (fun c => amount = c.depositedAmount) (·.withdraw amount) =
      some (.ok after)) :
    (after.map fun c => (c.depositedAmount.toNat : Int)).sum =
      (deposits.map fun c => (c.depositedAmount.toNat : Int)).sum - amount.toNat := by
  obtain ⟨entry, -, ⟨hall, hsum⟩ | ⟨changed, htake, hsum⟩⟩ :=
    sum_settleAt (fun c => (c.depositedAmount.toNat : Int)) h
  · rw [hsum, of_decide_eq_true hall]
  · rw [hsum, ObligationCollateral.withdraw_amount htake]
    push_cast
    ring

/-- **What was calculated can be booked.**  For entries of the obligation, the deposit not
empty: `repay` and `withdraw` accept the amounts, the debts and the deposits fall by
exactly these, and the tokens repaid cover what the reserve settles. -/
theorem calculateLiquidation_booked (amount : UInt64) (obligation : Obligation)
    (liquidityIndex collateralIndex : Nat) (liquidity : ObligationLiquidity)
    (collateral : ObligationCollateral) (bonus : Bonus) (result : CalculateLiquidationResult)
    (hliquidity : obligation.borrows[liquidityIndex]? = some liquidity)
    (hcollateral : obligation.deposits[collateralIndex]? = some collateral)
    (hdeposited : 0 < collateral.depositedAmount)
    (h : calculateLiquidation amount obligation liquidity collateral bonus = .ok result) :
    ∃ repaid after, obligation.repay result.settleAmount liquidityIndex = some (.ok repaid) ∧
      repaid.withdraw result.withdrawAmount collateralIndex = some (.ok after) ∧
        (after.borrows.map fun l => (l.borrowedAmountWads.scaledVal : Int)).sum =
          (obligation.borrows.map fun l => (l.borrowedAmountWads.scaledVal : Int)).sum -
            result.settleAmount.scaledVal ∧
        (after.deposits.map fun c => (c.depositedAmount.toNat : Int)).sum =
          (obligation.deposits.map fun c => (c.depositedAmount.toNat : Int)).sum -
            result.withdrawAmount.toNat ∧
        (obligation.WellFormed → after.WellFormed) ∧
          ∀ reserve : Reserve, reserve.Covered (.repay result.repayAmount result.settleAmount) := by
  have htaken := calculateLiquidation_taken h
  have hsettle := htaken.settle_le
  have hwithdraw : result.withdrawAmount.toNat ≤ collateral.depositedAmount.toNat := by
    rcases htaken.withdraw_le with hle | ⟨-, hone⟩
    · exact hle
    · rw [hone]
      exact UInt64.lt_iff_toNat_lt.mp hdeposited
  obtain ⟨borrows, hborrows⟩ := exists_settleAt
    (fun l => result.settleAmount = l.borrowedAmountWads) (·.repay result.settleAmount) hliquidity
    fun _ => ⟨_, ObligationLiquidity.repay_eq_ok_iff.mpr ⟨hsettle, rfl⟩⟩
  obtain ⟨deposits, hdeposits⟩ := exists_settleAt
    (fun c => result.withdrawAmount = c.depositedAmount) (·.withdraw result.withdrawAmount)
    hcollateral
    fun _ => ObligationCollateral.exists_withdraw hwithdraw
  have hrepaid : obligation.repay result.settleAmount liquidityIndex =
      some (.ok { obligation with borrows }) := map_map_eq_ok_iff.mpr ⟨borrows, hborrows, rfl⟩
  have hafter : { obligation with borrows }.withdraw result.withdrawAmount collateralIndex =
      some (.ok { obligation with borrows, deposits }) :=
    map_map_eq_ok_iff.mpr ⟨deposits, hdeposits, rfl⟩
  refine ⟨_, _, hrepaid, hafter, sum_repaid hborrows, sum_withdrawn hdeposits, fun hwell => ?_,
    fun _ => htaken.covers⟩
  have hmid := hwell.of_borrows (sublist_key_settleAt ObligationLiquidity.repay_reserve hborrows)
  exact hmid.of_deposits (sublist_key_settleAt ObligationCollateral.withdraw_reserve hdeposits)

/-- The loan of a thousand again: two fifths asked for, one fifth booked. -/
theorem calculateLiquidation_booked_thousand :
    let liquidity : ObligationLiquidity := ⟨Pubkey.default, .one, .ofNat 1000, .ofNat 1000⟩
    let collateral : ObligationCollateral := ⟨Pubkey.default, 900, .ofNat 1800, .zero⟩
    let obligation := { Obligation.new ⟨5, Pubkey.default, Pubkey.default, [collateral],
      [liquidity]⟩ with borrowedValue := .ofNat 1000 }
    ∃ repaid after, obligation.repay (.ofNat 200) 0 = some (.ok repaid) ∧
      repaid.withdraw 104 0 = some (.ok after) ∧
        (after.deposits.map fun c => (c.depositedAmount.toNat : Int)).sum = 796 := by
  intro liquidity collateral obligation
  obtain ⟨repaid, after, hrepaid, hafter, -, hsum, -⟩ := calculateLiquidation_booked 400 obligation
    0 0 liquidity collateral ⟨⟨5 * percentScaler⟩, .zero⟩ ⟨.ofNat 200, 200, 104⟩ rfl rfl (by decide)
    (by decide +kernel)
  exact ⟨repaid, after, hrepaid, hafter, hsum⟩

end Reserve

end Solend

end Gyrfalcon
