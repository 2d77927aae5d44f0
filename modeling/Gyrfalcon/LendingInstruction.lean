import Gyrfalcon.Core
import Gyrfalcon.Lib.ByteCodec

/-!
# Solend instruction codec (`patches/solend-sdk/src/instruction.rs`)

All 25 instructions of the lending program, `pack` and `unpack`.
`unpack_pack` is the round trip: whatever is packed unpacks to itself, except
`UpdateMarketMetadata`, which the source packs to nothing.
-/

namespace Gyrfalcon

open ByteCodec

/-! ## Instructions -/

inductive ReserveType where
  | regular
  | isolated
  deriving DecidableEq, Repr

structure ReserveFees where
  borrowFeeWad : UInt64
  flashLoanFeeWad : UInt64
  hostFeePercentage : UInt8
  deriving DecidableEq, Repr

structure ReserveConfig where
  optimalUtilizationRate : UInt8
  maxUtilizationRate : UInt8
  loanToValueRatio : UInt8
  liquidationBonus : UInt8
  maxLiquidationBonus : UInt8
  liquidationThreshold : UInt8
  maxLiquidationThreshold : UInt8
  minBorrowRate : UInt8
  optimalBorrowRate : UInt8
  maxBorrowRate : UInt8
  superMaxBorrowRate : UInt64
  fees : ReserveFees
  depositLimit : UInt64
  borrowLimit : UInt64
  feeReceiver : Pubkey
  protocolLiquidationFee : UInt8
  protocolTakeRate : UInt8
  addedBorrowWeightBps : UInt64
  reserveType : ReserveType
  scaledPriceOffsetBps : Int64
  extraOraclePubkey : Option Pubkey
  attributedBorrowLimitOpen : UInt64
  attributedBorrowLimitClose : UInt64
  deriving DecidableEq, Repr

structure RateLimiterConfig where
  windowDuration : UInt64
  maxOutflow : UInt64
  deriving DecidableEq, Repr

inductive LendingInstruction where
  | initLendingMarket (owner : Pubkey) (quoteCurrency : Bytes32)
  | setLendingMarketOwnerAndConfig (newOwner : Pubkey) (rateLimiterConfig : RateLimiterConfig)
      (whitelistedLiquidator : Option Pubkey) (riskAuthority : Pubkey)
  | initReserve (liquidityAmount : UInt64) (config : ReserveConfig)
  | refreshReserve
  | depositReserveLiquidity (liquidityAmount : UInt64)
  | redeemReserveCollateral (collateralAmount : UInt64)
  | initObligation
  | refreshObligation
  | depositObligationCollateral (collateralAmount : UInt64)
  | withdrawObligationCollateral (collateralAmount : UInt64)
  | borrowObligationLiquidity (liquidityAmount : UInt64)
  | repayObligationLiquidity (liquidityAmount : UInt64)
  | liquidateObligation (liquidityAmount : UInt64)
  | flashLoan (amount : UInt64)
  | depositReserveLiquidityAndObligationCollateral (liquidityAmount : UInt64)
  | withdrawObligationCollateralAndRedeemReserveCollateral (collateralAmount : UInt64)
  | updateReserveConfig (config : ReserveConfig) (rateLimiterConfig : RateLimiterConfig)
  | liquidateObligationAndRedeemReserveCollateral (liquidityAmount : UInt64)
  | redeemFees
  | flashBorrowReserveLiquidity (liquidityAmount : UInt64)
  | flashRepayReserveLiquidity (liquidityAmount : UInt64) (borrowInstructionIndex : UInt8)
  | forgiveDebt (liquidityAmount : UInt64)
  | updateMarketMetadata
  | setObligationCloseabilityStatus (closeable : Bool)
  | donateToReserve (liquidityAmount : UInt64)
  deriving DecidableEq, Repr

/-! ## Pack -/

namespace LendingInstruction

/-- `to_le_bytes` of a `u64`. -/
def packU64 (v : UInt64) : List UInt8 := leBytes 8 v.toNat

/-- `to_le_bytes` of an `i64`. -/
def packI64 (v : Int64) : List UInt8 := packU64 v.toUInt64

def packPubkey (key : Pubkey) : List UInt8 := key.bytes

def packOptionPubkey : Option Pubkey → List UInt8
  | some key => [1] ++ packPubkey key
  | none => [0]

/-- `reserve_type as u8`. -/
def packReserveType : ReserveType → UInt8
  | .regular => 0
  | .isolated => 1

/-- The reserve configuration, as `InitReserve` and `UpdateReserveConfig` both
write it. -/
def packReserveConfig (config : ReserveConfig) : List UInt8 :=
  [config.optimalUtilizationRate] ++ ([config.maxUtilizationRate] ++ ([config.loanToValueRatio] ++
  ([config.liquidationBonus] ++ ([config.liquidationThreshold] ++ ([config.minBorrowRate] ++
  ([config.optimalBorrowRate] ++ ([config.maxBorrowRate] ++ (packU64 config.superMaxBorrowRate ++
  (packU64 config.fees.borrowFeeWad ++ (packU64 config.fees.flashLoanFeeWad ++
  ([config.fees.hostFeePercentage] ++ (packU64 config.depositLimit ++ (packU64 config.borrowLimit ++
  (packPubkey config.feeReceiver ++ ([config.protocolLiquidationFee] ++
  ([config.protocolTakeRate] ++ (packU64 config.addedBorrowWeightBps ++
  ([packReserveType config.reserveType] ++ ([config.maxLiquidationBonus] ++
  ([config.maxLiquidationThreshold] ++ (packI64 config.scaledPriceOffsetBps ++
  (packOptionPubkey config.extraOraclePubkey ++ (packU64 config.attributedBorrowLimitOpen ++
  packU64 config.attributedBorrowLimitClose)))))))))))))))))))))))

def pack : LendingInstruction → List UInt8
  | .initLendingMarket owner quoteCurrency => 0 :: (packPubkey owner ++ packPubkey quoteCurrency)
  | .setLendingMarketOwnerAndConfig newOwner config whitelistedLiquidator riskAuthority =>
    1 :: (packPubkey newOwner ++ (packU64 config.windowDuration ++ (packU64 config.maxOutflow ++
      (packOptionPubkey whitelistedLiquidator ++ packPubkey riskAuthority))))
  | .initReserve liquidityAmount config =>
    2 :: (packU64 liquidityAmount ++ packReserveConfig config)
  | .refreshReserve => [3]
  | .depositReserveLiquidity liquidityAmount => 4 :: packU64 liquidityAmount
  | .redeemReserveCollateral collateralAmount => 5 :: packU64 collateralAmount
  | .initObligation => [6]
  | .refreshObligation => [7]
  | .depositObligationCollateral collateralAmount => 8 :: packU64 collateralAmount
  | .withdrawObligationCollateral collateralAmount => 9 :: packU64 collateralAmount
  | .borrowObligationLiquidity liquidityAmount => 10 :: packU64 liquidityAmount
  | .repayObligationLiquidity liquidityAmount => 11 :: packU64 liquidityAmount
  | .liquidateObligation liquidityAmount => 12 :: packU64 liquidityAmount
  | .flashLoan amount => 13 :: packU64 amount
  | .depositReserveLiquidityAndObligationCollateral liquidityAmount =>
    14 :: packU64 liquidityAmount
  | .withdrawObligationCollateralAndRedeemReserveCollateral collateralAmount =>
    15 :: packU64 collateralAmount
  | .updateReserveConfig config rateLimiterConfig =>
    16 :: (packReserveConfig config ++
      (packU64 rateLimiterConfig.windowDuration ++ packU64 rateLimiterConfig.maxOutflow))
  | .liquidateObligationAndRedeemReserveCollateral liquidityAmount =>
    17 :: packU64 liquidityAmount
  | .redeemFees => [18]
  | .flashBorrowReserveLiquidity liquidityAmount => 19 :: packU64 liquidityAmount
  | .flashRepayReserveLiquidity liquidityAmount borrowInstructionIndex =>
    20 :: (packU64 liquidityAmount ++ [borrowInstructionIndex])
  | .forgiveDebt liquidityAmount => 21 :: packU64 liquidityAmount
  | .updateMarketMetadata => []
  | .setObligationCloseabilityStatus closeable => [23, if closeable then 1 else 0]
  | .donateToReserve liquidityAmount => 24 :: packU64 liquidityAmount

/-! ## Unpack -/

/-- How `unpack` can fail: the error it returns, or the `unwrap` of an unknown
reserve type. -/
inductive UnpackError where
  | instructionUnpackError
  | panic
  deriving DecidableEq, Repr

abbrev Unpack := Reader UnpackError

def unpackU8 : Unpack UInt8 := readByte .instructionUnpackError

def unpackU64 : Unpack UInt64 := do
  let bytes ← readBytes 8 .instructionUnpackError
  return UInt64.ofNat (leVal bytes.1)

def unpackI64 : Unpack Int64 := do
  let value ← unpackU64
  return value.toInt64

def unpackPubkey : Unpack Pubkey := do
  let bytes ← readBytes 32 .instructionUnpackError
  return ⟨bytes.1, bytes.2⟩

def unpackOptionPubkey : Unpack (Option Pubkey) := do
  let flag ← unpackU8
  if flag = 0 then return none
  else if flag = 1 then
    let key ← unpackPubkey
    return some key
  else throw .instructionUnpackError

/-- `ReserveType::from_u8(..).unwrap()`. -/
def unpackReserveType (assetType : UInt8) : Unpack ReserveType :=
  if assetType = 0 then return .regular
  else if assetType = 1 then return .isolated
  else throw .panic

/-- The fields of a reserve configuration in reading order; the reserve type is
resolved only after everything has been read. -/
def unpackReserveConfig : Unpack (UInt8 × (ReserveType → ReserveConfig)) := do
  let optimalUtilizationRate ← unpackU8
  let maxUtilizationRate ← unpackU8
  let loanToValueRatio ← unpackU8
  let liquidationBonus ← unpackU8
  let liquidationThreshold ← unpackU8
  let minBorrowRate ← unpackU8
  let optimalBorrowRate ← unpackU8
  let maxBorrowRate ← unpackU8
  let superMaxBorrowRate ← unpackU64
  let borrowFeeWad ← unpackU64
  let flashLoanFeeWad ← unpackU64
  let hostFeePercentage ← unpackU8
  let depositLimit ← unpackU64
  let borrowLimit ← unpackU64
  let feeReceiver ← unpackPubkey
  let protocolLiquidationFee ← unpackU8
  let protocolTakeRate ← unpackU8
  let addedBorrowWeightBps ← unpackU64
  let assetType ← unpackU8
  let maxLiquidationBonus ← unpackU8
  let maxLiquidationThreshold ← unpackU8
  let scaledPriceOffsetBps ← unpackI64
  let extraOraclePubkey ← unpackOptionPubkey
  let attributedBorrowLimitOpen ← unpackU64
  let attributedBorrowLimitClose ← unpackU64
  return (assetType, fun reserveType =>
    { optimalUtilizationRate, maxUtilizationRate, loanToValueRatio, liquidationBonus,
      maxLiquidationBonus, liquidationThreshold, maxLiquidationThreshold, minBorrowRate,
      optimalBorrowRate, maxBorrowRate, superMaxBorrowRate,
      fees := { borrowFeeWad, flashLoanFeeWad, hostFeePercentage },
      depositLimit, borrowLimit, feeReceiver, protocolLiquidationFee, protocolTakeRate,
      addedBorrowWeightBps, reserveType, scaledPriceOffsetBps, extraOraclePubkey,
      attributedBorrowLimitOpen, attributedBorrowLimitClose })

/-- An instruction whose body is one amount. -/
def unpackAmount (instruction : UInt64 → LendingInstruction) : Unpack LendingInstruction := do
  let amount ← unpackU64
  return instruction amount

def unpackBody : UInt8 → Unpack LendingInstruction
  | 0 => do
    let owner ← unpackPubkey
    let quoteCurrency ← unpackPubkey
    return .initLendingMarket owner quoteCurrency
  | 1 => do
    let newOwner ← unpackPubkey
    let windowDuration ← unpackU64
    let maxOutflow ← unpackU64
    let whitelistedLiquidator ← unpackOptionPubkey
    let riskAuthority ← unpackPubkey
    return .setLendingMarketOwnerAndConfig newOwner ⟨windowDuration, maxOutflow⟩
      whitelistedLiquidator riskAuthority
  | 2 => do
    let liquidityAmount ← unpackU64
    let config ← unpackReserveConfig
    let reserveType ← unpackReserveType config.1
    return .initReserve liquidityAmount (config.2 reserveType)
  | 3 => return .refreshReserve
  | 4 => unpackAmount .depositReserveLiquidity
  | 5 => unpackAmount .redeemReserveCollateral
  | 6 => return .initObligation
  | 7 => return .refreshObligation
  | 8 => unpackAmount .depositObligationCollateral
  | 9 => unpackAmount .withdrawObligationCollateral
  | 10 => unpackAmount .borrowObligationLiquidity
  | 11 => unpackAmount .repayObligationLiquidity
  | 12 => unpackAmount .liquidateObligation
  | 13 => unpackAmount .flashLoan
  | 14 => unpackAmount .depositReserveLiquidityAndObligationCollateral
  | 15 => unpackAmount .withdrawObligationCollateralAndRedeemReserveCollateral
  | 16 => do
    let config ← unpackReserveConfig
    let windowDuration ← unpackU64
    let maxOutflow ← unpackU64
    let reserveType ← unpackReserveType config.1
    return .updateReserveConfig (config.2 reserveType) ⟨windowDuration, maxOutflow⟩
  | 17 => unpackAmount .liquidateObligationAndRedeemReserveCollateral
  | 18 => return .redeemFees
  | 19 => unpackAmount .flashBorrowReserveLiquidity
  | 20 => do
    let liquidityAmount ← unpackU64
    let borrowInstructionIndex ← unpackU8
    return .flashRepayReserveLiquidity liquidityAmount borrowInstructionIndex
  | 21 => unpackAmount .forgiveDebt
  | 22 => return .updateMarketMetadata
  | 23 => do
    let flag ← unpackU8
    if flag = 0 then return .setObligationCloseabilityStatus false
    else if flag = 1 then return .setObligationCloseabilityStatus true
    else throw .instructionUnpackError
  | 24 => unpackAmount .donateToReserve
  | _ => throw .instructionUnpackError

/-- Trailing bytes are ignored. -/
def unpack : List UInt8 → Except UnpackError LendingInstruction
  | [] => .error .instructionUnpackError
  | tag :: rest => (unpackBody tag).run' rest

/-! ## Round trip -/

theorem reads_u8 (v : UInt8) : Reads unpackU8 [v] v := reads_readByte _ v

theorem reads_u64 (v : UInt64) : Reads unpackU64 (packU64 v) v := by
  have hval : UInt64.ofNat (leVal (packU64 v)) = v := by
    rw [packU64, leVal_leBytes, Nat.mod_eq_of_lt (by simpa using v.toNat_lt), UInt64.ofNat_toNat]
  have h := (reads_readBytes UnpackError.instructionUnpackError (packU64 v)
    (length_leBytes 8 v.toNat)).map fun bytes => UInt64.ofNat (leVal bytes.1)
  rw [hval] at h
  exact h

theorem reads_i64 (v : Int64) : Reads unpackI64 (packI64 v) v := by
  have h := (reads_u64 v.toUInt64).map UInt64.toInt64
  exact h

theorem reads_pubkey (key : Pubkey) : Reads unpackPubkey (packPubkey key) key := by
  have h := reads_readBytes UnpackError.instructionUnpackError key.bytes key.length_eq
  exact h.map fun bytes : { bytes : List UInt8 // bytes.length = 32 } =>
    (⟨bytes.1, bytes.2⟩ : Pubkey)

theorem reads_optionPubkey (key : Option Pubkey) :
    Reads unpackOptionPubkey (packOptionPubkey key) key := by
  cases key with
  | none => exact (reads_u8 0).map fun _ => none
  | some key => exact (reads_u8 1).bind ((reads_pubkey key).map some)

theorem reads_reserveType (reserveType : ReserveType) :
    Reads (unpackReserveType (packReserveType reserveType)) [] reserveType := by
  cases reserveType <;> exact Reads.pure _

theorem reads_reserveConfig (config : ReserveConfig) :
    Reads unpackReserveConfig (packReserveConfig config) (packReserveType config.reserveType,
      fun reserveType => { config with reserveType }) := by
  refine (reads_u8 _).bind ((reads_u8 _).bind ((reads_u8 _).bind ((reads_u8 _).bind
    ((reads_u8 _).bind ((reads_u8 _).bind ((reads_u8 _).bind ((reads_u8 _).bind ?_)))))))
  refine (reads_u64 _).bind ((reads_u64 _).bind ((reads_u64 _).bind ((reads_u8 _).bind ?_)))
  refine (reads_u64 _).bind ((reads_u64 _).bind ((reads_pubkey _).bind ((reads_u8 _).bind
    ((reads_u8 _).bind ((reads_u64 _).bind ?_)))))
  refine (reads_u8 _).bind ((reads_u8 _).bind ((reads_u8 _).bind ((reads_i64 _).bind
    ((reads_optionPubkey _).bind ((reads_u64 _).bind ((reads_u64 _).map _))))))

theorem reads_amount (instruction : UInt64 → LendingInstruction) (amount : UInt64) :
    Reads (unpackAmount instruction) (packU64 amount) (instruction amount) :=
  (reads_u64 amount).map instruction

/-- Bytes after the body do not matter. -/
theorem unpack_cons_append_of_reads {tag : UInt8} {bytes : List UInt8}
    {instruction : LendingInstruction} (h : Reads (unpackBody tag) bytes instruction)
    (rest : List UInt8) : unpack (tag :: (bytes ++ rest)) = .ok instruction := by
  have hrun := h rest
  simp only [unpack, StateT.run', StateT.run] at hrun ⊢
  rw [hrun]
  rfl

theorem unpack_cons_of_reads {tag : UInt8} {bytes : List UInt8} {instruction : LendingInstruction}
    (h : Reads (unpackBody tag) bytes instruction) : unpack (tag :: bytes) = .ok instruction := by
  have hrun := unpack_cons_append_of_reads h []
  rw [List.append_nil] at hrun
  exact hrun

/-- **Round trip.**  Every instruction that packs to something unpacks to itself. -/
theorem unpack_pack (instruction : LendingInstruction) (h : instruction ≠ .updateMarketMetadata) :
    unpack instruction.pack = .ok instruction := by
  cases instruction with
  | updateMarketMetadata => exact absurd rfl h
  | initLendingMarket owner quoteCurrency =>
    exact unpack_cons_of_reads ((reads_pubkey _).bind ((reads_pubkey _).map _))
  | setLendingMarketOwnerAndConfig newOwner config whitelistedLiquidator riskAuthority =>
    exact unpack_cons_of_reads ((reads_pubkey _).bind ((reads_u64 _).bind ((reads_u64 _).bind
      ((reads_optionPubkey _).bind ((reads_pubkey _).map _)))))
  | initReserve liquidityAmount config =>
    exact unpack_cons_of_reads ((reads_u64 _).bind ((reads_reserveConfig config).bind_nil
      ((reads_reserveType _).map _)))
  | updateReserveConfig config rateLimiterConfig =>
    exact unpack_cons_of_reads ((reads_reserveConfig config).bind ((reads_u64 _).bind
      ((reads_u64 _).bind_nil ((reads_reserveType _).map _))))
  | flashRepayReserveLiquidity liquidityAmount borrowInstructionIndex =>
    exact unpack_cons_of_reads ((reads_u64 _).bind ((reads_u8 _).map _))
  | setObligationCloseabilityStatus closeable => cases closeable <;> rfl
  | refreshReserve => rfl
  | initObligation => rfl
  | refreshObligation => rfl
  | redeemFees => rfl
  | _ => exact unpack_cons_of_reads (reads_amount _ _)

end LendingInstruction

end Gyrfalcon
