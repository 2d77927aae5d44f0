import Gyrfalcon.Core
import Gyrfalcon.Lib.Rounding
import Mathlib.Algebra.Order.Field.Rat
import Mathlib.Data.Rat.Floor

/-!
# The klend interface

`klend-interface` is a third-party crate: its account layouts are a parameter
of the model.  A decoded account is a record of what the engine's accessors
return on it; `from_account_data` is one partial decoder per account type.
-/

namespace Gyrfalcon

open Rounding (F64)

namespace Klend

/-- `Reserve`. -/
structure Reserve where
  /-- `liquidity.mint_pubkey` -/
  mintPubkey : Pubkey
  /-- `market_price()`, a scaled fraction -/
  marketPrice : Nat
  mintDecimals : Nat
  /-- `liquidity.market_price_last_updated_ts` -/
  marketPriceLastUpdatedTs : Nat
  /-- `config.token_info.max_age_price_seconds` -/
  maxAgePriceSeconds : Nat
  availableLiquidity : Nat
  /-- `config.fees.flash_loan_fee_sf` -/
  flashLoanFeeSf : Nat
  deriving DecidableEq, Repr

/-- `LendingMarket`. -/
structure LendingMarket where
  liquidationMaxDebtCloseFactorPct : Nat
  maxLiquidatableDebtMarketValueAtOnce : Nat
  deriving DecidableEq, Repr

/-- `ObligationLiquidity`, one borrow slot. -/
structure ObligationLiquidity where
  isActive : Bool
  marketValue : Nat
  borrowReserve : Pubkey
  borrowedAmount : Nat
  deriving DecidableEq, Repr

/-- `ObligationCollateral`, one deposit slot. -/
structure ObligationCollateral where
  isActive : Bool
  marketValue : Nat
  depositReserve : Pubkey
  deriving DecidableEq, Repr

/-- `Obligation`. -/
structure Obligation where
  lendingMarket : Pubkey
  borrowFactorAdjustedDebtValue : Nat
  unhealthyBorrowValue : Nat
  borrows : List ObligationLiquidity
  deposits : List ObligationCollateral
  deriving DecidableEq, Repr

/-- Discriminators (`SPL_DISCRIMINATOR_SLICE`) and `from_account_data` of the
three account types, and the arithmetic their fractions are turned into `f64`
for. -/
structure Interface where
  f64 : F64
  reserveDiscriminator : List UInt8
  lendingMarketDiscriminator : List UInt8
  obligationDiscriminator : List UInt8
  reserve : List UInt8 → Option Reserve
  lendingMarket : List UInt8 → Option LendingMarket
  obligation : List UInt8 → Option Obligation

/-- A small codec with the deployed discriminators, for closed examples.  The
body of a reserve is its mint and its price in USD, a lending market has no
body, and that of an obligation is its market, its debt reserve and its
collateral reserve; the debt is 100 USD against a threshold of 90. -/
def sample : Interface where
  f64 := .exact
  reserveDiscriminator := [43, 242, 204, 202, 26, 247, 59, 127]
  lendingMarketDiscriminator := [246, 114, 50, 98, 72, 157, 28, 120]
  obligationDiscriminator := [168, 206, 141, 106, 88, 76, 172, 167]
  reserve
    | [43, 242, 204, 202, 26, 247, 59, 127, mint, price] =>
      some ⟨Bytes32.fill mint, price.toNat * 2 ^ 60, 6, 0, 0, 10 ^ 12, 0⟩
    | _ => none
  lendingMarket
    | [246, 114, 50, 98, 72, 157, 28, 120] => some ⟨20, 500000⟩
    | _ => none
  obligation
    | [168, 206, 141, 106, 88, 76, 172, 167, market, debt, collateral] =>
      some ⟨Bytes32.fill market, 100 * 2 ^ 60, 90 * 2 ^ 60,
        [⟨true, 100 * 2 ^ 60, Bytes32.fill debt, 100 * 10 ^ 6 * 2 ^ 60⟩],
        [⟨true, 120 * 2 ^ 60, Bytes32.fill collateral⟩]⟩
    | _ => none

/-- The sample lending market, account 9. -/
def sampleMarket (slot : Nat) : AccountUpdate :=
  ⟨Bytes32.fill 9, kaminoProgramId, [246, 114, 50, 98, 72, 157, 28, 120], slot⟩

/-- The sample reserve, account 1, of mint 2. -/
def sampleReserve (price : UInt8) (slot : Nat) : AccountUpdate :=
  ⟨Bytes32.fill 1, kaminoProgramId, [43, 242, 204, 202, 26, 247, 59, 127, 2, price], slot⟩

/-- A breached obligation against the sample market and reserve. -/
def sampleObligation (pubkey : Pubkey) (slot : Nat) : AccountUpdate :=
  ⟨pubkey, kaminoProgramId, [168, 206, 141, 106, 88, 76, 172, 167, 9, 1, 1], slot⟩

end Klend

/-- `Fraction::from_bits(sf)`: 60 fractional bits. -/
def sfToRat (sf : Nat) : ℚ := sf / 2 ^ 60

theorem sfToRat_nonneg (sf : Nat) : 0 ≤ sfToRat sf :=
  div_nonneg (Nat.cast_nonneg sf) (by norm_num)

/-- `Fraction::from_bits(sf).to_num::<f64>()`. -/
def sfToF64 (f64 : F64) (sf : Nat) : ℚ := f64.round (sfToRat sf)

/-- `as u64` on a float: truncate and saturate. -/
def toU64 (q : ℚ) : Nat := min q.floor.toNat u64Max

/-- Truncating a non-negative number is rounding it down. -/
theorem cast_floor_toNat {q : ℚ} (h : 0 ≤ q) : ((q.floor.toNat : Nat) : ℚ) = ⌊q⌋ := by
  have hint : ((⌊q⌋.toNat : Nat) : ℤ) = ⌊q⌋ := Int.toNat_of_nonneg (Int.floor_nonneg.mpr h)
  exact_mod_cast congrArg (Int.cast : ℤ → ℚ) hint

end Gyrfalcon
