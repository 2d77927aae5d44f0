import Gyrfalcon.Lib.Machine
import Gyrfalcon.Lib.Shares
import Gyrfalcon.SaveInterest

/-!
# A Solend reserve as a pool (`patches/solend-sdk/src/state/reserve.rs`)

Depositors hold collateral tokens, shares in `total_supply`.  The methods write
as they go: one that fails has kept what it wrote before.  The exchange rate is
rounded down, which favours the pool when shares are minted and the redeemer
when they are burned; over every sequence of calls the price of a share falls by
no more than that (`sharePrice_run`).
-/

namespace Gyrfalcon

open FixedPoint Fallible Shares

namespace Solend

def initialCollateralRate : UInt64 := 1000000000000000000

/-! ## Liquidity -/

namespace ReserveLiquidity

def deposit (liquidityAmount : UInt64) : Fallible LendingError ReserveLiquidity Unit := do
  let availableAmount ← u64CheckedAdd (← get).availableAmount liquidityAmount
  modify ({ · with availableAmount })

def withdraw (liquidityAmount : UInt64) : Fallible LendingError ReserveLiquidity Unit := do
  refuseIf ((← get).availableAmount < liquidityAmount) LendingError.insufficientLiquidity
  let availableAmount ← u64CheckedSub (← get).availableAmount liquidityAmount
  modify ({ · with availableAmount })

def borrow (borrowDecimal : Decimal) : Fallible LendingError ReserveLiquidity Unit := do
  let borrowAmount ← borrowDecimal.tryFloorU64
  refuseIf ((← get).availableAmount < borrowAmount) LendingError.insufficientLiquidity
  let availableAmount ← u64CheckedSub (← get).availableAmount borrowAmount
  modify ({ · with availableAmount })
  let borrowedAmountWads ← (← get).borrowedAmountWads.tryAdd borrowDecimal
  modify ({ · with borrowedAmountWads })

def repay (repayAmount : UInt64) (settleAmount : Decimal) :
    Fallible LendingError ReserveLiquidity Unit := do
  let availableAmount ← u64CheckedAdd (← get).availableAmount repayAmount
  modify ({ · with availableAmount })
  let safeSettleAmount := min settleAmount (← get).borrowedAmountWads
  let borrowedAmountWads ← (← get).borrowedAmountWads.trySub safeSettleAmount
  modify ({ · with borrowedAmountWads })

def forgiveDebt (liquidityAmount : Decimal) : Fallible LendingError ReserveLiquidity Unit := do
  let borrowedAmountWads ← (← get).borrowedAmountWads.trySub liquidityAmount
  modify ({ · with borrowedAmountWads })

def donate (donateAmount : UInt64) : Fallible LendingError ReserveLiquidity Unit := do
  let availableAmount ← u64CheckedAdd (← get).availableAmount donateAmount
  modify ({ · with availableAmount })

def redeemFees (withdrawAmount : UInt64) : Fallible LendingError ReserveLiquidity Unit := do
  let availableAmount ← u64CheckedSub (← get).availableAmount withdrawAmount
  modify ({ · with availableAmount })
  let accumulatedProtocolFeesWads ←
    (← get).accumulatedProtocolFeesWads.trySub (.ofNat withdrawAmount.toNat)
  modify ({ · with accumulatedProtocolFeesWads })

end ReserveLiquidity

/-! ## Collateral -/

structure CollateralExchangeRate where
  rate : Rate
  deriving DecidableEq, Repr

namespace CollateralExchangeRate

def decimalCollateralToLiquidity (self : CollateralExchangeRate) (collateralAmount : Decimal) :
    Except LendingError Decimal :=
  collateralAmount.tryDivRate self.rate

def collateralToLiquidity (self : CollateralExchangeRate) (collateralAmount : UInt64) :
    Except LendingError UInt64 := do
  let liquidity ← self.decimalCollateralToLiquidity (.ofNat collateralAmount.toNat)
  liquidity.tryFloorU64

def decimalLiquidityToCollateral (self : CollateralExchangeRate) (liquidityAmount : Decimal) :
    Except LendingError Decimal :=
  liquidityAmount.tryMulRate self.rate

def liquidityToCollateral (self : CollateralExchangeRate) (liquidityAmount : UInt64) :
    Except LendingError UInt64 := do
  let collateral ← self.decimalLiquidityToCollateral (.ofNat liquidityAmount.toNat)
  collateral.tryFloorU64

variable {self : CollateralExchangeRate} {amount out : UInt64}

theorem collateralToLiquidity_of_ok (h : self.collateralToLiquidity amount = .ok out) :
    wad * amount.toNat * wad / self.rate.scaledVal / wad = out.toNat := by
  simp only [collateralToLiquidity, decimalCollateralToLiquidity, bind_eq_ok_iff,
    Decimal.tryDivRate_eq_ok_iff, Decimal.tryFloorU64_eq_ok_iff, Decimal.ofNat_scaledVal] at h
  obtain ⟨_, ⟨-, -, rfl⟩, hout⟩ := h
  exact hout

theorem liquidityToCollateral_of_ok (h : self.liquidityToCollateral amount = .ok out) :
    wad * amount.toNat * self.rate.scaledVal / wad / wad = out.toNat := by
  simp only [liquidityToCollateral, decimalLiquidityToCollateral, bind_eq_ok_iff,
    Decimal.tryMulRate_eq_ok_iff, Decimal.tryFloorU64_eq_ok_iff, Decimal.ofNat_scaledVal] at h
  obtain ⟨_, ⟨-, rfl⟩, hout⟩ := h
  exact hout

end CollateralExchangeRate

namespace ReserveCollateral

def mint (collateralAmount : UInt64) : Fallible LendingError ReserveCollateral Unit := do
  let mintTotalSupply ← u64CheckedAdd (← get).mintTotalSupply collateralAmount
  modify ({ · with mintTotalSupply })

def burn (collateralAmount : UInt64) : Fallible LendingError ReserveCollateral Unit := do
  let mintTotalSupply ← u64CheckedSub (← get).mintTotalSupply collateralAmount
  modify ({ · with mintTotalSupply })

def exchangeRate (self : ReserveCollateral) (totalLiquidity : Decimal) :
    Except LendingError CollateralExchangeRate := do
  let rate ← (if self.mintTotalSupply = 0 ∨ totalLiquidity = .zero then
      return .fromScaledVal initialCollateralRate
    else do
      let ratio ← (Decimal.ofNat self.mintTotalSupply.toNat).tryDiv totalLiquidity
      ratio.tryIntoRate)
  return ⟨rate⟩

end ReserveCollateral

/-! ## The reserve -/

namespace Reserve

/-- A method of `self.collateral`. -/
def onCollateral {α : Type} (x : Fallible LendingError ReserveCollateral α) :
    Fallible LendingError Reserve α :=
  zoom Reserve.collateral (fun self collateral => { self with collateral }) x

def collateralExchangeRate (self : Reserve) : Except LendingError CollateralExchangeRate := do
  let totalLiquidity ← self.liquidity.totalSupply
  self.collateral.exchangeRate totalLiquidity

def depositLiquidity (liquidityAmount : UInt64) : Fallible LendingError Reserve UInt64 := do
  let exchangeRate ← (← get).collateralExchangeRate
  let collateralAmount ← exchangeRate.liquidityToCollateral liquidityAmount
  onLiquidity (ReserveLiquidity.deposit liquidityAmount)
  onCollateral (ReserveCollateral.mint collateralAmount)
  return collateralAmount

def redeemCollateral (collateralAmount : UInt64) : Fallible LendingError Reserve UInt64 := do
  let collateralExchangeRate ← (← get).collateralExchangeRate
  let liquidityAmount ← collateralExchangeRate.collateralToLiquidity collateralAmount
  onCollateral (ReserveCollateral.burn collateralAmount)
  onLiquidity (ReserveLiquidity.withdraw liquidityAmount)
  return liquidityAmount

/-- Repay everything, or at most an amount: the amount settled, and the tokens for it. -/
def calculateRepay (amountToRepay : UInt64) (borrowedAmount : Decimal) :
    Except LendingError (Decimal × UInt64) := do
  let settleAmount := if amountToRepay.toNat = u64Max then borrowedAmount
    else min (.ofNat amountToRepay.toNat) borrowedAmount
  let repayAmount ← settleAmount.tryCeilU64
  return (settleAmount, repayAmount)

def calculateRedeemFees (self : Reserve) : Except LendingError UInt64 := do
  let fees ← self.liquidity.accumulatedProtocolFeesWads.tryFloorU64
  return min self.liquidity.availableAmount fees

end Reserve

/-! ## What the methods leave -/

/-- The total supply as a difference, which fees above it make negative. -/
def ReserveLiquidity.total (self : ReserveLiquidity) : Int :=
  wad * self.availableAmount.toNat + self.borrowedAmountWads.scaledVal -
    self.accumulatedProtocolFeesWads.scaledVal

section Liquidity

variable {liquidity after : ReserveLiquidity} {amount : UInt64} {r : Except LendingError Unit}

theorem deposit_total (h : (ReserveLiquidity.deposit amount).exec liquidity = (r, after)) :
    (∃ e, r = .error e ∧ after = liquidity) ∨
      r = .ok () ∧ after.total = liquidity.total + amount.toNat * wad := by
  cases r with
  | error e =>
    simp only [ReserveLiquidity.deposit, exec_get_bind, exec_lift_bind_eq_error_iff, exec_modify,
      Prod.mk.injEq, reduceCtorEq, false_and, and_false, exists_false, or_false] at h
    exact Or.inl ⟨e, rfl, h.2.symm⟩
  | ok u =>
    simp only [ReserveLiquidity.deposit, exec_get_bind, exec_lift_bind_eq_ok_iff, exec_modify,
      Prod.mk.injEq, u64CheckedAdd_eq_ok_iff] at h
    obtain ⟨available, hsum, -, rfl⟩ := h
    refine Or.inr ⟨rfl, ?_⟩
    simp only [ReserveLiquidity.total, ← hsum]
    push_cast
    ring

theorem withdraw_total (h : (ReserveLiquidity.withdraw amount).exec liquidity = (r, after)) :
    (∃ e, r = .error e ∧ after = liquidity) ∨
      r = .ok () ∧ after.total = liquidity.total - wad * amount.toNat := by
  cases r with
  | error e =>
    simp only [ReserveLiquidity.withdraw, exec_get_bind, exec_lift_bind_eq_error_iff, exec_modify,
      Prod.mk.injEq, reduceCtorEq, false_and, and_false, exists_false, or_false] at h
    refine Or.inl ⟨e, rfl, ?_⟩
    rcases h with ⟨-, rfl⟩ | ⟨_, -, -, rfl⟩
    · rfl
    · rfl
  | ok u =>
    simp only [ReserveLiquidity.withdraw, exec_get_bind, exec_lift_bind_eq_ok_iff, exec_modify,
      Prod.mk.injEq, u64CheckedSub_eq_ok_iff] at h
    obtain ⟨_, -, available, hsum, -, rfl⟩ := h
    refine Or.inr ⟨rfl, ?_⟩
    simp only [ReserveLiquidity.total, hsum]
    push_cast
    ring

/-- A debt is far from leaving 192 bits. -/
theorem borrowed_fits {debt amount : Nat} {floor : UInt64} (hdebt : debt < u128Bound)
    (hfloor : amount / wad = floor.toNat) : debt + amount < u192Bound := by
  have hdiv := Nat.lt_mul_div_succ amount wad_pos
  rw [hfloor] at hdiv
  have hsmall := hdiv.trans_le (Nat.mul_le_mul_left wad floor.toNat_lt)
  calc debt + amount < u128Bound + wad * 2 ^ 64 := Nat.add_lt_add hdebt hsmall
    _ < u192Bound := by decide

/-- A borrow of a fraction adds the fraction to the total. -/
theorem borrow_total {borrowed : Decimal}
    (hfits : liquidity.borrowedAmountWads.scaledVal < u128Bound)
    (h : (ReserveLiquidity.borrow borrowed).exec liquidity = (r, after)) :
    liquidity.total ≤ after.total := by
  cases r with
  | error e =>
    simp only [ReserveLiquidity.borrow, exec_get_bind, exec_modify_bind,
      exec_lift_bind_eq_error_iff, exec_modify, Prod.mk.injEq, reduceCtorEq, false_and, and_false,
      exists_false, or_false, Decimal.tryFloorU64_eq_ok_iff] at h
    rcases h with ⟨-, rfl⟩ | ⟨floor, hfloor, ⟨-, rfl⟩ | ⟨_, -, ⟨-, rfl⟩ | ⟨_, -, herror, rfl⟩⟩⟩
    · exact le_refl _
    · exact le_refl _
    · exact le_refl _
    · have hover := Decimal.le_of_tryAdd_eq_error herror
      exact absurd (borrowed_fits hfits hfloor) (not_lt.mpr hover)
  | ok u =>
    simp only [ReserveLiquidity.borrow, exec_get_bind, exec_modify_bind, exec_lift_bind_eq_ok_iff,
      exec_modify, Prod.mk.injEq, Decimal.tryFloorU64_eq_ok_iff, Decimal.tryAdd_eq_ok_iff,
      u64CheckedSub_eq_ok_iff] at h
    obtain ⟨floor, hfloor, _, -, available, hsum, _, ⟨-, rfl⟩, -, rfl⟩ := h
    have hle := Nat.mul_div_le borrowed.scaledVal wad
    rw [hfloor] at hle
    simp only [ReserveLiquidity.total, hsum]
    push_cast
    zify at hle
    linarith

/-- A repayment that covers what it settles. -/
theorem repay_total {settled : Decimal} (hcovers : settled.scaledVal ≤ wad * amount.toNat)
    (h : (ReserveLiquidity.repay amount settled).exec liquidity = (r, after)) :
    liquidity.total ≤ after.total := by
  cases r with
  | error e =>
    simp only [ReserveLiquidity.repay, exec_get_bind, exec_modify_bind,
      exec_lift_bind_eq_error_iff, exec_modify, Prod.mk.injEq, reduceCtorEq, false_and, and_false,
      exists_false, or_false] at h
    rcases h with ⟨-, rfl⟩ | ⟨_, -, herror, rfl⟩
    · exact le_refl _
    · have hlt := Decimal.lt_of_trySub_eq_error herror
      rw [Decimal.min_scaledVal] at hlt
      exact absurd hlt (Nat.not_lt.mpr (Nat.min_le_right _ _))
  | ok u =>
    simp only [ReserveLiquidity.repay, exec_get_bind, exec_modify_bind, exec_lift_bind_eq_ok_iff,
      exec_modify, Prod.mk.injEq, u64CheckedAdd_eq_ok_iff, Decimal.trySub_eq_ok_iff,
      Decimal.min_scaledVal] at h
    obtain ⟨available, hsum, _, ⟨hmin, rfl⟩, -, rfl⟩ := h
    have hsettled := Nat.min_le_left settled.scaledVal liquidity.borrowedAmountWads.scaledVal
    simp only [ReserveLiquidity.total, ← hsum]
    push_cast [Nat.cast_sub hmin]
    zify at hcovers hsettled
    linarith

theorem donate_total (h : (ReserveLiquidity.donate amount).exec liquidity = (r, after)) :
    liquidity.total ≤ after.total := by
  rcases deposit_total h with ⟨e, -, rfl⟩ | ⟨-, htotal⟩
  · exact le_refl _
  · rw [htotal]
    have : (0 : Int) ≤ amount.toNat * wad := by positivity
    linarith

/-- Fees are paid out of what the total leaves out. -/
theorem redeemFees_total
    (hcovers : wad * amount.toNat ≤ liquidity.accumulatedProtocolFeesWads.scaledVal)
    (h : (ReserveLiquidity.redeemFees amount).exec liquidity = (r, after)) :
    liquidity.total ≤ after.total := by
  cases r with
  | error e =>
    simp only [ReserveLiquidity.redeemFees, exec_get_bind, exec_modify_bind,
      exec_lift_bind_eq_error_iff, exec_modify, Prod.mk.injEq, reduceCtorEq, false_and, and_false,
      exists_false, or_false] at h
    rcases h with ⟨-, rfl⟩ | ⟨_, -, herror, rfl⟩
    · exact le_refl _
    · exact absurd (Decimal.lt_of_trySub_eq_error herror) (Nat.not_lt.mpr hcovers)
  | ok u =>
    simp only [ReserveLiquidity.redeemFees, exec_get_bind, exec_modify_bind,
      exec_lift_bind_eq_ok_iff, exec_modify, Prod.mk.injEq, u64CheckedSub_eq_ok_iff,
      Decimal.trySub_eq_ok_iff, Decimal.ofNat_scaledVal] at h
    obtain ⟨available, hsum, _, ⟨-, rfl⟩, -, rfl⟩ := h
    simp only [ReserveLiquidity.total, hsum]
    push_cast [Nat.cast_sub hcovers]
    linarith

end Liquidity

/-- The pool the collateral tokens are shares of. -/
def Reserve.pool (self : Reserve) : Pool :=
  ⟨self.liquidity.total, self.collateral.mintTotalSupply.toNat⟩

section Pool

variable {reserve after : Reserve} {amount : UInt64}

/-- The exchange rate is the rounded ratio of the shares to the total, or one to one. -/
theorem collateralExchangeRate_of_ok {rate : CollateralExchangeRate}
    (h : reserve.collateralExchangeRate = .ok rate) :
    ∃ total : Nat, reserve.liquidity.total = total ∧
      ((reserve.collateral.mintTotalSupply.toNat = 0 ∨ total = 0) ∧ rate.rate.scaledVal = wad ∨
        0 < reserve.collateral.mintTotalSupply.toNat ∧ 0 < total ∧
          rate.rate.scaledVal = wad * reserve.collateral.mintTotalSupply.toNat * wad / total) := by
  simp only [Reserve.collateralExchangeRate, bind_eq_ok_iff,
    ReserveLiquidity.totalSupply_eq_ok_iff, ReserveCollateral.exchangeRate, pure_eq_ok_iff] at h
  obtain ⟨total, ⟨-, hsum⟩, scaled, hscaled, rfl⟩ := h
  refine ⟨total.scaledVal, ?_, ?_⟩
  · unfold ReserveLiquidity.total
    zify at hsum
    linarith
  · split at hscaled
    · next hempty =>
      obtain rfl := pure_eq_ok_iff.mp hscaled
      refine Or.inl ⟨?_, rfl⟩
      rcases hempty with hnone | hnone
      · exact Or.inl (congrArg UInt64.toNat hnone)
      · exact Or.inr (congrArg Decimal.scaledVal hnone)
    · next hempty =>
      simp only [bind_eq_ok_iff, Decimal.tryDiv_eq_ok_iff, Decimal.tryIntoRate_eq_ok_iff,
        Decimal.ofNat_scaledVal] at hscaled
      obtain ⟨_, ⟨-, hne, rfl⟩, hrate⟩ := hscaled
      refine Or.inr ⟨?_, Nat.pos_of_ne_zero hne, hrate.symm⟩
      exact Nat.pos_of_ne_zero fun hzero => hempty (Or.inl (UInt64.toNat_inj.mp hzero))

theorem mint_cases {collateral minted : ReserveCollateral} {r : Except LendingError Unit}
    (h : (ReserveCollateral.mint amount).exec collateral = (r, minted)) :
    (∃ e, r = .error e ∧ minted = collateral) ∨ r = .ok () ∧
      minted.mintTotalSupply.toNat = collateral.mintTotalSupply.toNat + amount.toNat := by
  cases r with
  | error e =>
    simp only [ReserveCollateral.mint, exec_get_bind, exec_lift_bind_eq_error_iff, exec_modify,
      Prod.mk.injEq, reduceCtorEq, false_and, and_false, exists_false, or_false] at h
    exact Or.inl ⟨e, rfl, h.2.symm⟩
  | ok u =>
    simp only [ReserveCollateral.mint, exec_get_bind, exec_lift_bind_eq_ok_iff, exec_modify,
      Prod.mk.injEq, u64CheckedAdd_eq_ok_iff] at h
    obtain ⟨supply, hsum, -, rfl⟩ := h
    exact Or.inr ⟨rfl, hsum.symm⟩

theorem burn_cases {collateral burned : ReserveCollateral} {r : Except LendingError Unit}
    (h : (ReserveCollateral.burn amount).exec collateral = (r, burned)) :
    (∃ e, r = .error e ∧ burned = collateral) ∨ r = .ok () ∧
      collateral.mintTotalSupply.toNat = amount.toNat + burned.mintTotalSupply.toNat := by
  cases r with
  | error e =>
    simp only [ReserveCollateral.burn, exec_get_bind, exec_lift_bind_eq_error_iff, exec_modify,
      Prod.mk.injEq, reduceCtorEq, false_and, and_false, exists_false, or_false] at h
    exact Or.inl ⟨e, rfl, h.2.symm⟩
  | ok u =>
    simp only [ReserveCollateral.burn, exec_get_bind, exec_lift_bind_eq_ok_iff, exec_modify,
      Prod.mk.injEq, u64CheckedSub_eq_ok_iff] at h
    obtain ⟨supply, hsum, -, rfl⟩ := h
    exact Or.inr ⟨rfl, hsum⟩

/-- A deposit fails with nothing done or with the deposit booked, or mints. -/
theorem depositLiquidity_cases {r : Except LendingError UInt64}
    (h : (Reserve.depositLiquidity amount).exec reserve = (r, after)) :
    (∃ e, r = .error e ∧ (after.pool = reserve.pool ∨
      after.pool = ⟨reserve.pool.total + amount.toNat * wad, reserve.pool.shares⟩)) ∨
      ∃ rate minted, reserve.collateralExchangeRate = .ok rate ∧
        rate.liquidityToCollateral amount = .ok minted ∧ r = .ok minted ∧
          after.pool = ⟨reserve.pool.total + amount.toNat * wad,
            reserve.pool.shares + minted.toNat⟩ := by
  cases r with
  | error e =>
    simp only [Reserve.depositLiquidity, exec_get_bind, exec_lift_bind_eq_error_iff,
      exec_zoom_bind_eq_error_iff, Reserve.onLiquidity, Reserve.onCollateral, exec_pure,
      Prod.mk.injEq, reduceCtorEq, false_and, and_false, exists_false, or_false] at h
    refine Or.inl ⟨e, rfl, ?_⟩
    rcases h with ⟨-, rfl⟩ | ⟨rate, -, ⟨-, rfl⟩ | ⟨minted, -, ⟨liquidity, hdeposit, rfl⟩ |
      ⟨_, liquidity, hdeposit, collateral, hmint, rfl⟩⟩⟩
    · exact Or.inl rfl
    · exact Or.inl rfl
    · rcases deposit_total hdeposit with ⟨_, -, rfl⟩ | ⟨hok, -⟩
      · exact Or.inl rfl
      · cases hok
    · rcases deposit_total hdeposit with ⟨_, herror, -⟩ | ⟨-, htotal⟩
      · cases herror
      · rcases mint_cases hmint with ⟨_, -, rfl⟩ | ⟨hok, -⟩
        · exact Or.inr (by simp only [Reserve.pool, htotal])
        · cases hok
  | ok minted =>
    simp only [Reserve.depositLiquidity, exec_get_bind, exec_lift_bind_eq_ok_iff,
      exec_zoom_bind_eq_ok_iff, Reserve.onLiquidity, Reserve.onCollateral, exec_pure,
      Prod.mk.injEq, Except.ok.injEq] at h
    obtain ⟨rate, hrate, _, hminted, _, liquidity, hdeposit, _, collateral, hmint, rfl, rfl⟩ := h
    refine Or.inr ⟨rate, _, hrate, hminted, rfl, ?_⟩
    rcases deposit_total hdeposit with ⟨_, herror, -⟩ | ⟨-, htotal⟩
    · cases herror
    · rcases mint_cases hmint with ⟨_, herror, -⟩ | ⟨-, hsupply⟩
      · cases herror
      · simp only [Reserve.pool, htotal, hsupply, Nat.cast_add]

/-- A redemption fails with nothing done or with the shares burned, or pays. -/
theorem redeemCollateral_cases {r : Except LendingError UInt64}
    (h : (Reserve.redeemCollateral amount).exec reserve = (r, after)) :
    (∃ e, r = .error e ∧ (after.pool = reserve.pool ∨
      after.pool = ⟨reserve.pool.total, reserve.pool.shares - amount.toNat⟩)) ∨
      ∃ rate paid, reserve.collateralExchangeRate = .ok rate ∧
        rate.collateralToLiquidity amount = .ok paid ∧ r = .ok paid ∧
          after.pool = ⟨reserve.pool.total - wad * paid.toNat,
            reserve.pool.shares - amount.toNat⟩ := by
  cases r with
  | error e =>
    simp only [Reserve.redeemCollateral, exec_get_bind, exec_lift_bind_eq_error_iff,
      exec_zoom_bind_eq_error_iff, Reserve.onLiquidity, Reserve.onCollateral, exec_pure,
      Prod.mk.injEq, reduceCtorEq, false_and, and_false, exists_false, or_false] at h
    refine Or.inl ⟨e, rfl, ?_⟩
    rcases h with ⟨-, rfl⟩ | ⟨rate, -, ⟨-, rfl⟩ | ⟨paid, -, ⟨collateral, hburn, rfl⟩ |
      ⟨_, collateral, hburn, liquidity, hwithdraw, rfl⟩⟩⟩
    · exact Or.inl rfl
    · exact Or.inl rfl
    · rcases burn_cases hburn with ⟨_, -, rfl⟩ | ⟨hok, -⟩
      · exact Or.inl rfl
      · cases hok
    · rcases burn_cases hburn with ⟨_, herror, -⟩ | ⟨-, hsupply⟩
      · cases herror
      · rcases withdraw_total hwithdraw with ⟨_, -, rfl⟩ | ⟨hok, -⟩
        · refine Or.inr ?_
          simp only [Reserve.pool, hsupply, Nat.cast_add, add_sub_cancel_left]
        · cases hok
  | ok paid =>
    simp only [Reserve.redeemCollateral, exec_get_bind, exec_lift_bind_eq_ok_iff,
      exec_zoom_bind_eq_ok_iff, Reserve.onLiquidity, Reserve.onCollateral, exec_pure,
      Prod.mk.injEq, Except.ok.injEq] at h
    obtain ⟨rate, hrate, _, hpaid, _, collateral, hburn, _, liquidity, hwithdraw, rfl, rfl⟩ := h
    refine Or.inr ⟨rate, _, hrate, hpaid, rfl, ?_⟩
    rcases burn_cases hburn with ⟨_, herror, -⟩ | ⟨-, hsupply⟩
    · cases herror
    · rcases withdraw_total hwithdraw with ⟨_, herror, -⟩ | ⟨-, htotal⟩
      · cases herror
      · simp only [Reserve.pool, htotal, hsupply, Nat.cast_add, add_sub_cancel_left]

end Pool

/-! ## Calls -/

namespace Reserve

inductive Call where
  | depositLiquidity (liquidityAmount : UInt64)
  | redeemCollateral (collateralAmount : UInt64)
  | accrueInterest (currentSlot : UInt64)
  | updateSlot (slot : UInt64)
  | borrow (borrowDecimal : Decimal)
  | repay (repayAmount : UInt64) (settleAmount : Decimal)
  | forgiveDebt (liquidityAmount : Decimal)
  | donate (donateAmount : UInt64)
  | redeemFees (withdrawAmount : UInt64)

/-- A call that returns no amount. -/
def after (self : Reserve) (x : Fallible LendingError Reserve Unit) : Reserve := (x.exec self).2

/-- One call: the reserve it leaves, and the liquidity a redemption pays. -/
def step (self : Reserve) : Call → Reserve × Nat
  | .depositLiquidity liquidityAmount => (((depositLiquidity liquidityAmount).exec self).2, 0)
  | .redeemCollateral collateralAmount =>
    match (redeemCollateral collateralAmount).exec self with
    | (.ok paid, after) => (after, paid.toNat)
    | (.error _, after) => (after, 0)
  | .accrueInterest currentSlot => (self.after (accrueInterest currentSlot), 0)
  | .updateSlot slot => ({ self with lastUpdate := self.lastUpdate.updateSlot slot }, 0)
  | .borrow borrowDecimal => (self.after (onLiquidity (ReserveLiquidity.borrow borrowDecimal)), 0)
  | .repay repayAmount settleAmount =>
    (self.after (onLiquidity (ReserveLiquidity.repay repayAmount settleAmount)), 0)
  | .forgiveDebt liquidityAmount =>
    (self.after (onLiquidity (ReserveLiquidity.forgiveDebt liquidityAmount)), 0)
  | .donate donateAmount => (self.after (onLiquidity (ReserveLiquidity.donate donateAmount)), 0)
  | .redeemFees withdrawAmount =>
    (self.after (onLiquidity (ReserveLiquidity.redeemFees withdrawAmount)), 0)

/-- Tokens cover what they settle and fees what is redeemed of them, as `calculate_repay`
and `calculate_redeem_fees` see to it; no debt is forgiven. -/
def Covered (self : Reserve) : Call → Prop
  | .repay repayAmount settleAmount => settleAmount.scaledVal ≤ wad * repayAmount.toNat
  | .redeemFees withdrawAmount =>
    wad * withdrawAmount.toNat ≤ self.liquidity.accumulatedProtocolFeesWads.scaledVal
  | .forgiveDebt _ => False
  | _ => True

instance (self : Reserve) (call : Call) : Decidable (self.Covered call) :=
  match call with
  | .repay repayAmount settleAmount =>
    inferInstanceAs (Decidable (settleAmount.scaledVal ≤ wad * repayAmount.toNat))
  | .redeemFees withdrawAmount =>
    inferInstanceAs (Decidable (wad * withdrawAmount.toNat ≤
      self.liquidity.accumulatedProtocolFeesWads.scaledVal))
  | .forgiveDebt _ => .isFalse id
  | .depositLiquidity _ => .isTrue trivial
  | .redeemCollateral _ => .isTrue trivial
  | .accrueInterest _ => .isTrue trivial
  | .updateSlot _ => .isTrue trivial
  | .borrow _ => .isTrue trivial
  | .donate _ => .isTrue trivial

theorem calculateRepay_covered {self : Reserve} {amountToRepay repayAmount : UInt64}
    {borrowedAmount settleAmount : Decimal}
    (h : calculateRepay amountToRepay borrowedAmount = .ok (settleAmount, repayAmount)) :
    self.Covered (.repay repayAmount settleAmount) := by
  simp only [calculateRepay, bind_eq_ok_iff, pure_eq_ok_iff, Decimal.tryCeilU64_eq_ok_iff,
    Prod.mk.injEq] at h
  obtain ⟨repay, ⟨-, hceil⟩, rfl, rfl⟩ := h
  change _ ≤ _
  rw [← hceil]
  have hdiv := Nat.lt_mul_div_succ
    (wad - 1 + (if amountToRepay.toNat = u64Max then borrowedAmount
      else min (.ofNat amountToRepay.toNat) borrowedAmount).scaledVal) wad_pos
  rw [Nat.mul_succ] at hdiv
  have := wad_pos
  omega

theorem calculateRedeemFees_covered {self : Reserve} {withdrawAmount : UInt64}
    (h : self.calculateRedeemFees = .ok withdrawAmount) :
    self.Covered (.redeemFees withdrawAmount) := by
  simp only [calculateRedeemFees, bind_eq_ok_iff, pure_eq_ok_iff,
    Decimal.tryFloorU64_eq_ok_iff] at h
  obtain ⟨fees, hfloor, rfl⟩ := h
  have hle : (min self.liquidity.availableAmount fees).toNat ≤ fees.toNat := by
    rw [toNat_min]
    exact Nat.min_le_right _ _
  calc wad * (min self.liquidity.availableAmount fees).toNat ≤ wad * fees.toNat :=
        Nat.mul_le_mul_left _ hle
    _ = wad * (self.liquidity.accumulatedProtocolFeesWads.scaledVal / wad) := by rw [hfloor]
    _ ≤ _ := Nat.mul_div_le _ _

theorem keeps_onLiquidity {α : Type} (x : Fallible LendingError ReserveLiquidity α) :
    Keeps config (onLiquidity x) := fun _ => rfl

theorem keeps_onCollateral {α : Type} (x : Fallible LendingError ReserveCollateral α) :
    Keeps config (onCollateral x) := fun _ => rfl

theorem keeps_depositLiquidity (amount : UInt64) : Keeps config (depositLiquidity amount) :=
  .bind .get fun _ => .bind (.lift _) fun _ => .bind (.lift _) fun _ =>
    .bind (keeps_onLiquidity _) fun _ => .bind (keeps_onCollateral _) fun _ => .pure _

theorem keeps_redeemCollateral (amount : UInt64) : Keeps config (redeemCollateral amount) :=
  .bind .get fun _ => .bind (.lift _) fun _ => .bind (.lift _) fun _ =>
    .bind (keeps_onCollateral _) fun _ => .bind (keeps_onLiquidity _) fun _ => .pure _

/-- No call changes the configuration. -/
theorem step_config (self : Reserve) (call : Call) : (self.step call).1.config = self.config := by
  cases call with
  | depositLiquidity amount => exact keeps_depositLiquidity amount self
  | redeemCollateral amount =>
    have hkeeps := keeps_redeemCollateral amount self
    simp only [step]
    rcases hexec : (redeemCollateral amount).exec self with ⟨_ | _, _⟩
    · rwa [hexec] at hkeeps
    · rwa [hexec] at hkeeps
  | accrueInterest slot =>
    simp only [step, after]
    rcases hexec : (accrueInterest slot).exec self with ⟨_ | _, reserve⟩
    · obtain ⟨_, rfl⟩ := accrueInterest_of_error hexec
      rfl
    · rcases accrueInterest_of_ok hexec with ⟨-, rfl⟩ | ⟨_, _, _, -, -, -, rfl⟩
      · rfl
      · rfl
  | updateSlot slot => rfl
  | borrow amount => exact keeps_onLiquidity _ self
  | repay amount settled => exact keeps_onLiquidity _ self
  | forgiveDebt amount => exact keeps_onLiquidity _ self
  | donate amount => exact keeps_onLiquidity _ self
  | redeemFees amount => exact keeps_onLiquidity _ self

/-- A change of the liquidity that does not lower its total. -/
theorem fair_onLiquidity {self : Reserve} {x : Fallible LendingError ReserveLiquidity Unit}
    (h : ∀ {r after}, x.exec self.liquidity = (r, after) → self.liquidity.total ≤ after.total) :
    Fair wad 0 self.pool (self.after (onLiquidity x)).pool := by
  rcases hexec : x.exec self.liquidity with ⟨r, liquidity⟩
  have hafter : self.after (onLiquidity x) = { self with liquidity } := by
    have hzoom : (onLiquidity x).exec self = (r, { self with liquidity }) :=
      exec_zoom_eq_iff.mpr ⟨liquidity, hexec, rfl⟩
    rw [after, hzoom]
  rw [hafter]
  exact Fair.of_le (Int.natCast_nonneg _) (Int.natCast_nonneg _) rfl (h hexec)

theorem fair_depositLiquidity {self : Reserve} {amount : UInt64} (htotal : 0 < self.pool.total)
    (hshares : 0 < self.pool.shares) :
    Fair wad 0 self.pool ((depositLiquidity amount).exec self).2.pool := by
  have hw : (0 : Int) ≤ wad := Int.natCast_nonneg _
  rcases hexec : (depositLiquidity amount).exec self with ⟨r, after⟩
  rcases depositLiquidity_cases hexec with ⟨e, -, hpool | hpool⟩ | ⟨rate, minted, hrate, hminted, -,
    hpool⟩
  · rw [hpool]
    exact Fair.of_le hw hshares.le rfl (le_refl _)
  · rw [hpool]
    refine Fair.of_le hw hshares.le rfl ?_
    dsimp only
    have : (0 : Int) ≤ amount.toNat * wad := by positivity
    linarith
  · rw [hpool]
    obtain ⟨total, hsum, ⟨hempty, -⟩ | ⟨-, hpos, hval⟩⟩ := collateralExchangeRate_of_ok hrate
    · unfold pool at htotal hshares
      dsimp only at htotal hshares
      omega
    · refine Fair.of_mint hw rfl rfl ?_
      have hle := minted_le amount.toNat wad_pos (hval ▸ Nat.div_mul_le_self _ total)
      rw [CollateralExchangeRate.liquidityToCollateral_of_ok hminted] at hle
      unfold pool
      dsimp only
      rw [hsum]
      exact_mod_cast hle

theorem fair_redeemCollateral {self : Reserve} {amount : UInt64} (htotal : 0 < self.pool.total)
    (hshares : 0 < self.pool.shares) :
    Fair wad (self.step (.redeemCollateral amount)).2 self.pool
      (self.step (.redeemCollateral amount)).1.pool := by
  have hw : (0 : Int) ≤ wad := Int.natCast_nonneg _
  simp only [step]
  rcases hexec : (redeemCollateral amount).exec self with ⟨r, after⟩
  rcases redeemCollateral_cases hexec with ⟨e, rfl, hpool | hpool⟩ | ⟨rate, paid, hrate, hpaid, rfl,
    hpool⟩
  · dsimp only
    rw [hpool]
    exact Fair.of_le hw hshares.le rfl (le_refl _)
  · dsimp only
    rw [hpool]
    refine Fair.of_burn hw htotal.le rfl ?_
    dsimp only
    omega
  · dsimp only
    rw [hpool]
    obtain ⟨total, hsum, ⟨hempty, -⟩ | ⟨-, hpos, hval⟩⟩ := collateralExchangeRate_of_ok hrate
    · unfold pool at htotal hshares
      dsimp only at htotal hshares
      omega
    · refine Fair.of_redeem amount.toNat rfl rfl ?_
      have hceil := Nat.lt_mul_div_succ
        (wad * self.collateral.mintTotalSupply.toNat * wad) hpos
      rw [← hval, mul_comm total] at hceil
      have hle := paid_le amount.toNat wad_pos hceil
      rw [CollateralExchangeRate.collateralToLiquidity_of_ok hpaid] at hle
      unfold pool
      dsimp only
      rw [hsum]
      exact_mod_cast hle

/-- **One call.** -/
theorem step_fair {self : Reserve} {call : Call}
    (hconfig : validateReserveConfig self.config = .ok ())
    (hborrowed : self.liquidity.borrowedAmountWads.scaledVal < u128Bound)
    (hcovered : self.Covered call) (htotal : 0 < self.pool.total)
    (hshares : 0 < self.pool.shares) :
    Fair wad (self.step call).2 self.pool (self.step call).1.pool := by
  have hw : (0 : Int) ≤ wad := Int.natCast_nonneg _
  cases call with
  | depositLiquidity amount => exact fair_depositLiquidity htotal hshares
  | redeemCollateral amount => exact fair_redeemCollateral htotal hshares
  | accrueInterest slot =>
    simp only [step, after]
    rcases hexec : (accrueInterest slot).exec self with ⟨_ | _, reserve⟩
    · obtain ⟨_, rfl⟩ := accrueInterest_of_error hexec
      exact Fair.of_le hw hshares.le rfl (le_refl _)
    · obtain ⟨⟨n, x, haccrued⟩, hafter⟩ := accrueInterest_accrued hconfig hexec
      rw [hafter]
      refine Fair.of_le hw hshares.le rfl ?_
      have hfees := haccrued.fees_le
      zify at hfees
      simp only [pool, ReserveLiquidity.total, haccrued.available_eq]
      linarith
  | updateSlot slot => exact Fair.of_le hw hshares.le rfl (le_refl _)
  | borrow amount => exact fair_onLiquidity (borrow_total hborrowed)
  | repay amount settled => exact fair_onLiquidity (repay_total hcovered)
  | forgiveDebt amount => exact hcovered.elim
  | donate amount => exact fair_onLiquidity donate_total
  | redeemFees amount => exact fair_onLiquidity (redeemFees_total hcovered)

/-- A call between reserves that can be packed, with its arguments covered, that leaves
at least `floor` collateral tokens. -/
structure Regular (floor : Nat) (reserve : Reserve) (call : Call) : Prop where
  borrowed_lt : reserve.liquidity.borrowedAmountWads.scaledVal < u128Bound
  covered : reserve.Covered call
  floor_le : floor ≤ (reserve.step call).1.collateral.mintTotalSupply.toNat

theorem regular_iff {floor : Nat} {reserve : Reserve} {call : Call} :
    Regular floor reserve call ↔ reserve.liquidity.borrowedAmountWads.scaledVal < u128Bound ∧
      reserve.Covered call ∧ floor ≤ (reserve.step call).1.collateral.mintTotalSupply.toNat :=
  ⟨fun h => ⟨h.borrowed_lt, h.covered, h.floor_le⟩, fun h => ⟨h.1, h.2.1, h.2.2⟩⟩

instance (floor : Nat) (reserve : Reserve) (call : Call) : Decidable (Regular floor reserve call) :=
  decidable_of_iff _ regular_iff.symm

/-- What a run carries along: the configuration, the tokens left and, while little has
been paid, the price. -/
structure Carried (floor : Nat) (start : Reserve) (paid : List Nat) (reserve : Reserve) : Prop where
  config_eq : reserve.config = start.config
  floor_le : floor ≤ reserve.collateral.mintTotalSupply.toNat
  kept : paid.sum < floor * wad → Kept wad floor (paid.sum : Nat) start.pool reserve.pool

theorem Carried.step {floor : Nat} {start self : Reserve} {paid : List Nat} {call : Call}
    (hconfig : validateReserveConfig start.config = .ok ()) (htotal : 0 < start.pool.total)
    (hfloor : 0 < floor) (hregular : Regular floor self call) (h : Carried floor start paid self) :
    Carried floor start (paid ++ [(self.step call).2]) (self.step call).1 := by
  refine ⟨(step_config self call).trans h.config_eq, hregular.floor_le, fun hsum => ?_⟩
  rw [List.sum_append, List.sum_singleton] at hsum ⊢
  have hw : (0 : Int) < wad := by exact_mod_cast wad_pos
  have hpos : (0 : Int) < floor := by exact_mod_cast hfloor
  have hprice := h.kept (by omega)
  have hshares : (floor : Int) ≤ self.pool.shares := Int.ofNat_le.mpr h.floor_le
  have hleft : (floor : Int) ≤ (self.step call).1.pool.shares :=
    Int.ofNat_le.mpr hregular.floor_le
  have hfair := step_fair (h.config_eq ▸ hconfig) hregular.borrowed_lt hregular.covered hprice.1
    (lt_of_lt_of_le hpos hshares)
  have hnext := hprice.step hw htotal (Int.natCast_nonneg _) (Int.natCast_nonneg _)
    (Int.natCast_nonneg _) hpos hshares hleft (by exact_mod_cast hsum) hfair
  exact_mod_cast hnext

/-- **The price of a share.**  Whatever the calls, failed ones included: while at least
`floor` collateral tokens are left, the price has fallen by at most the part
`paid / (floor * 10^18)` of it, where `paid` is all that was redeemed. -/
theorem sharePrice_run (reserve : Reserve) (calls : List Call) (floor : Nat)
    (hconfig : validateReserveConfig reserve.config = .ok ()) (htotal : 0 < reserve.pool.total)
    (hfloor : 0 < floor) (hstart : floor ≤ reserve.collateral.mintTotalSupply.toNat)
    (hregular : ∀ t ∈ Machine.steps step reserve calls, Regular floor t.pre t.input)
    (hpaid : (Machine.outputs step reserve calls).sum < floor * wad) :
    let after := Machine.final step reserve calls
    let paid : Int := (Machine.outputs step reserve calls).sum
    0 < after.pool.total ∧
      reserve.pool.total * after.pool.shares * (floor * wad - paid) ≤
        after.pool.total * reserve.pool.shares * (floor * wad) := by
  have hrun := Machine.history_invariant_of_steps
    (fun _ _ _ hregular h => Carried.step hconfig htotal hfloor hregular h)
    ⟨rfl, hstart, fun _ => Kept.refl htotal⟩ calls hregular
  exact hrun.kept hpaid

/-- A deposit, a loan, its interest, the repayment and a redemption. -/
theorem sharePrice_run_loan :
    let calls : List Call := [.depositLiquidity 500, .borrow (.ofNat 900), .accrueInterest 1000,
      .updateSlot 1000, .repay 901 (.ofNat 900), .redeemCollateral 400, .redeemCollateral 5000]
    let reserve := plainReserve 1000 0 1000
    let after := Machine.final step reserve calls
    reserve.pool.total * after.pool.shares * (1000 * wad - 400) ≤
      after.pool.total * reserve.pool.shares * (1000 * wad) := by
  intro calls reserve after
  have houtputs : Machine.outputs step reserve calls = [0, 0, 0, 0, 0, 400, 0] := by decide +kernel
  have hregular : ∀ t ∈ Machine.steps step reserve calls, Regular 1000 t.pre t.input := by
    decide +kernel
  have hrun := sharePrice_run reserve calls 1000 (by decide +kernel) (by decide +kernel)
    (by decide) (by decide +kernel) hregular (by rw [houtputs]; decide)
  rw [houtputs] at hrun
  exact hrun.2

/-! ## In and out again -/

/-- Minted tokens are worth no more, afterwards, than what was paid for them. -/
theorem minted_worth {self : Reserve} {rate : CollateralExchangeRate} {amount minted : UInt64}
    {total : Nat} (hempty : self.pool.shares = 0 → self.pool.total = 0)
    (hsum : self.liquidity.total = total) (hrate : self.collateralExchangeRate = .ok rate)
    (hminted : rate.liquidityToCollateral amount = .ok minted) :
    minted.toNat * (total + amount.toNat * wad) ≤
      amount.toNat * wad * (self.collateral.mintTotalSupply.toNat + minted.toNat) := by
  have hval := CollateralExchangeRate.liquidityToCollateral_of_ok hminted
  obtain ⟨total', hsum', hcases⟩ := collateralExchangeRate_of_ok hrate
  obtain rfl : total = total' := Int.ofNat_inj.mp (hsum.symm.trans hsum')
  have hworth : minted.toNat * total ≤
      amount.toNat * wad * self.collateral.mintTotalSupply.toNat := by
    rcases hcases with ⟨hnone, -⟩ | ⟨-, hpos, hrounded⟩
    · have hzero : total = 0 := by
        rcases hnone with hnone | hnone
        · have := hempty (by simp [pool, hnone])
          unfold pool at this
          dsimp only at this
          omega
        · exact hnone
      simp [hzero]
    · rw [← hval]
      exact minted_le amount.toNat wad_pos (hrounded ▸ Nat.div_mul_le_self _ total)
  calc minted.toNat * (total + amount.toNat * wad)
      = minted.toNat * total + amount.toNat * wad * minted.toNat := by ring
    _ ≤ amount.toNat * wad * self.collateral.mintTotalSupply.toNat +
        amount.toNat * wad * minted.toNat := Nat.add_le_add_right hworth _
    _ = _ := by ring

/-- **In and out again.**  What a deposit mints redeems at once for no more than the
deposit, unless a token has become so dear that the deposit's square exceeds `10^18`
times the tokens. -/
theorem deposit_redeem_le (reserve after after' : Reserve) (amount minted paid : UInt64)
    (hempty : reserve.pool.shares = 0 → reserve.pool.total = 0)
    (hdeposit : (depositLiquidity amount).exec reserve = (.ok minted, after))
    (hredeem : (redeemCollateral minted).exec after = (.ok paid, after'))
    (hsmall : amount.toNat * (amount.toNat + 1) < minted.toNat * wad) : paid ≤ amount := by
  rcases depositLiquidity_cases hdeposit with ⟨_, herror, -⟩ | ⟨rate, _, hrate, hminted, hok, hpool⟩
  · cases herror
  obtain rfl := Except.ok.inj hok
  rcases redeemCollateral_cases hredeem with ⟨_, herror, -⟩ | ⟨rate', _, hrate', hpaid, hok, -⟩
  · cases herror
  obtain rfl := Except.ok.inj hok
  obtain ⟨total, hsum, -⟩ := collateralExchangeRate_of_ok hrate
  obtain ⟨total', hsum', hcases⟩ := collateralExchangeRate_of_ok hrate'
  have hworth := minted_worth hempty hsum hrate hminted
  have htotal : total' = total + amount.toNat * wad := by
    have h := congrArg Pool.total hpool
    simp only [pool, hsum, hsum'] at h
    exact_mod_cast h
  have hshares : after.collateral.mintTotalSupply.toNat =
      reserve.collateral.mintTotalSupply.toNat + minted.toNat := by
    have h := congrArg Pool.shares hpool
    simp only [pool] at h
    exact_mod_cast h
  rw [← htotal, ← hshares] at hworth
  have hpos : 0 < minted.toNat := by
    refine Nat.pos_of_ne_zero fun hzero => ?_
    rw [hzero, zero_mul] at hsmall
    exact Nat.not_lt_zero _ hsmall
  have hpool : 0 < total' := by
    refine Nat.pos_of_ne_zero fun hzero => ?_
    have hnothing : amount.toNat * wad = 0 := by omega
    have hamount : amount.toNat = 0 :=
      (Nat.mul_eq_zero.mp hnothing).resolve_right (Nat.pos_iff_ne_zero.mp wad_pos)
    have hval := CollateralExchangeRate.liquidityToCollateral_of_ok hminted
    rw [hamount, mul_zero, zero_mul, Nat.zero_div, Nat.zero_div] at hval
    omega
  rcases hcases with ⟨hnone, -⟩ | ⟨hsome, -, hrounded⟩
  · omega
  · have hceil := Nat.lt_mul_div_succ
      (wad * after.collateral.mintTotalSupply.toNat * wad) hpool
    rw [← hrounded, mul_comm total'] at hceil
    have hle := paid_le minted.toNat wad_pos hceil
    rw [CollateralExchangeRate.collateralToLiquidity_of_ok hpaid] at hle
    exact UInt64.le_iff_toNat_le.mpr (roundTrip_le wad_pos hsome hworth hle hsmall)

/-- Into a pool that has earned interest and out again. -/
theorem deposit_redeem_le_earned :
    ∃ after after' minted paid,
      (depositLiquidity 1000).exec (plainReserve 1000 500 1200) = (.ok minted, after) ∧
        (redeemCollateral minted).exec after = (.ok paid, after') ∧ minted = 800 ∧
          paid ≤ 1000 := by
  obtain ⟨after, hdeposit⟩ : ∃ after,
      (depositLiquidity 1000).exec (plainReserve 1000 500 1200) = (.ok 800, after) :=
    ⟨((depositLiquidity 1000).exec (plainReserve 1000 500 1200)).2,
      Prod.ext (by decide +kernel) rfl⟩
  obtain ⟨paid, after', hredeem⟩ : ∃ paid after',
      (redeemCollateral 800).exec after = (.ok paid, after') := by
    have heval : ((redeemCollateral 800).exec
        ((depositLiquidity 1000).exec (plainReserve 1000 500 1200)).2).1 = .ok 1000 := by
      decide +kernel
    rw [hdeposit] at heval
    exact ⟨1000, _, Prod.ext heval rfl⟩
  exact ⟨after, after', 800, paid, hdeposit, hredeem, rfl,
    deposit_redeem_le _ after after' 1000 800 paid (by decide +kernel) hdeposit hredeem
      (by decide)⟩

end Reserve

end Solend

end Gyrfalcon
