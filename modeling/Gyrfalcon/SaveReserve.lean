import Gyrfalcon.LendingInstruction
import Mathlib.Data.Fintype.Basic

/-!
# Solend reserve accounts (`patches/solend-sdk/src/state/reserve.rs`)

`Reserve::unpack_from_slice`, field by field.  It slices before it looks: a
short slice panics, and so does an asset type other than 0 or 1, after the
version and two of the flags have been checked.  A longer slice is read up to
the length of a reserve, and version 0 is let through.
-/

namespace Gyrfalcon

open ByteCodec

namespace Solend

/-! ## Records -/

/-- `Decimal`, precise to 18 digits: its scaled value. -/
structure Decimal where
  scaledVal : Nat
  deriving DecidableEq, Repr

structure LastUpdate where
  slot : UInt64
  stale : Bool
  deriving DecidableEq, Repr

structure ReserveLiquidity where
  mintPubkey : Pubkey
  mintDecimals : UInt8
  supplyPubkey : Pubkey
  pythOraclePubkey : Pubkey
  switchboardOraclePubkey : Pubkey
  availableAmount : UInt64
  borrowedAmountWads : Decimal
  cumulativeBorrowRateWads : Decimal
  accumulatedProtocolFeesWads : Decimal
  marketPrice : Decimal
  smoothedMarketPrice : Decimal
  extraMarketPrice : Option Decimal
  deriving DecidableEq, Repr

structure ReserveCollateral where
  mintPubkey : Pubkey
  mintTotalSupply : UInt64
  supplyPubkey : Pubkey
  deriving DecidableEq, Repr

structure RateLimiter where
  config : RateLimiterConfig
  prevQty : Decimal
  windowStart : UInt64
  curQty : Decimal
  deriving DecidableEq, Repr

structure Reserve where
  version : UInt8
  lastUpdate : LastUpdate
  lendingMarket : Pubkey
  liquidity : ReserveLiquidity
  collateral : ReserveCollateral
  config : ReserveConfig
  rateLimiter : RateLimiter
  attributedBorrowValue : Decimal
  deriving DecidableEq, Repr

def programVersion : UInt8 := 1

def uninitializedVersion : UInt8 := 0

/-- `IsInitialized for Reserve`. -/
def Reserve.isInitialized (self : Reserve) : Bool := self.version != uninitializedVersion

inductive ProgramError where
  | invalidAccountData
  deriving DecidableEq, Repr

/-- A result of unpacking; `none` is a panic. -/
abbrev Unpacked (α : Type) := ExceptT ProgramError Option α

/-! ## Layout -/

/-- The fields of a packed reserve, in order. -/
inductive Field where
  | version
  | lastUpdateSlot
  | lastUpdateStale
  | lendingMarket
  | liquidityMintPubkey
  | liquidityMintDecimals
  | liquiditySupplyPubkey
  | liquidityPythOraclePubkey
  | liquiditySwitchboardOraclePubkey
  | liquidityAvailableAmount
  | liquidityBorrowedAmountWads
  | liquidityCumulativeBorrowRateWads
  | liquidityMarketPrice
  | collateralMintPubkey
  | collateralMintTotalSupply
  | collateralSupplyPubkey
  | configOptimalUtilizationRate
  | configLoanToValueRatio
  | configLiquidationBonus
  | configLiquidationThreshold
  | configMinBorrowRate
  | configOptimalBorrowRate
  | configMaxBorrowRate
  | configFeesBorrowFeeWad
  | configFeesFlashLoanFeeWad
  | configFeesHostFeePercentage
  | configDepositLimit
  | configBorrowLimit
  | configFeeReceiver
  | configProtocolLiquidationFee
  | configProtocolTakeRate
  | liquidityAccumulatedProtocolFeesWads
  | rateLimiter
  | configAddedBorrowWeightBps
  | liquiditySmoothedMarketPrice
  | configAssetType
  | configMaxUtilizationRate
  | configSuperMaxBorrowRate
  | configMaxLiquidationBonus
  | configMaxLiquidationThreshold
  | configScaledPriceOffsetBps
  | configExtraOraclePubkey
  | liquidityExtraMarketPriceFlag
  | liquidityExtraMarketPrice
  | attributedBorrowValue
  | configAttributedBorrowLimitOpen
  | configAttributedBorrowLimitClose
  | padding
  deriving DecidableEq, Repr

def rateLimiterLen : Nat := 56

def reserveLen : Nat := 619

/-- The widths `array_refs!` splits a reserve into. -/
def layout : List (Field × Nat) :=
  [(.version, 1), (.lastUpdateSlot, 8), (.lastUpdateStale, 1), (.lendingMarket, 32),
    (.liquidityMintPubkey, 32), (.liquidityMintDecimals, 1), (.liquiditySupplyPubkey, 32),
    (.liquidityPythOraclePubkey, 32), (.liquiditySwitchboardOraclePubkey, 32),
    (.liquidityAvailableAmount, 8), (.liquidityBorrowedAmountWads, 16),
    (.liquidityCumulativeBorrowRateWads, 16), (.liquidityMarketPrice, 16),
    (.collateralMintPubkey, 32), (.collateralMintTotalSupply, 8), (.collateralSupplyPubkey, 32),
    (.configOptimalUtilizationRate, 1), (.configLoanToValueRatio, 1), (.configLiquidationBonus, 1),
    (.configLiquidationThreshold, 1), (.configMinBorrowRate, 1), (.configOptimalBorrowRate, 1),
    (.configMaxBorrowRate, 1), (.configFeesBorrowFeeWad, 8), (.configFeesFlashLoanFeeWad, 8),
    (.configFeesHostFeePercentage, 1), (.configDepositLimit, 8), (.configBorrowLimit, 8),
    (.configFeeReceiver, 32), (.configProtocolLiquidationFee, 1), (.configProtocolTakeRate, 1),
    (.liquidityAccumulatedProtocolFeesWads, 16), (.rateLimiter, rateLimiterLen),
    (.configAddedBorrowWeightBps, 8), (.liquiditySmoothedMarketPrice, 16), (.configAssetType, 1),
    (.configMaxUtilizationRate, 1), (.configSuperMaxBorrowRate, 8),
    (.configMaxLiquidationBonus, 1), (.configMaxLiquidationThreshold, 1),
    (.configScaledPriceOffsetBps, 8), (.configExtraOraclePubkey, 32),
    (.liquidityExtraMarketPriceFlag, 1), (.liquidityExtraMarketPrice, 16),
    (.attributedBorrowValue, 16), (.configAttributedBorrowLimitOpen, 8),
    (.configAttributedBorrowLimitClose, 8), (.padding, 49)]

/-- The bytes before a field. -/
def Field.offset (field : Field) : Nat :=
  ((layout.takeWhile fun entry => entry.1 ≠ field).map Prod.snd).sum

/-- The bytes of a field. -/
def Field.width (field : Field) : Nat :=
  ((layout.find? fun entry => entry.1 = field).map Prod.snd).getD 0

/-- `[u8; n]`. -/
abbrev ByteArr (n : Nat) := { bytes : List UInt8 // bytes.length = n }

/-- `n` bytes from `offset` on. -/
def ByteArr.slice {len : Nat} (input : ByteArr len) (offset n : Nat) (h : offset + n ≤ len) :
    ByteArr n :=
  ⟨(input.1.drop offset).take n, by
    have := input.2
    simp
    omega⟩

theorem Field.offset_add_width_le (field : Field) : field.offset + field.width ≤ reserveLen := by
  cases field <;> decide

/-- The bytes of one field of a packed reserve. -/
def Field.of (field : Field) (input : ByteArr reserveLen) : ByteArr field.width :=
  input.slice field.offset field.width field.offset_add_width_le

/-! ## Unpacking -/

/-- `u8::from_le_bytes`. -/
def u8FromLeBytes (src : ByteArr 1) : UInt8 := src.1.headD 0

/-- `u64::from_le_bytes`. -/
def u64FromLeBytes (src : ByteArr 8) : UInt64 := UInt64.ofNat (leVal src.1)

/-- `i64::from_le_bytes`. -/
def i64FromLeBytes (src : ByteArr 8) : Int64 := (u64FromLeBytes src).toInt64

/-- `Pubkey::new_from_array`. -/
def pubkeyNewFromArray (src : ByteArr 32) : Pubkey := ⟨src.1, src.2⟩

def unpackDecimal (src : ByteArr 16) : Decimal := ⟨leVal src.1⟩

/-- A byte that has to be 0 or 1. -/
def byByte {α : Type} (value : UInt8) (zero one other : Unpacked α) : Unpacked α :=
  match value with
  | 0 => zero
  | 1 => one
  | _ => other

def unpackBool (src : ByteArr 1) : Unpacked Bool :=
  byByte (u8FromLeBytes src) (pure false) (pure true) (throw .invalidAccountData)

/-- `extra_market_price`, behind its flag. -/
def unpackExtraMarketPrice (flag : ByteArr 1) (src : ByteArr 16) : Unpacked (Option Decimal) :=
  byByte (u8FromLeBytes flag) (pure none) (pure (some (unpackDecimal src)))
    (throw .invalidAccountData)

/-- `ReserveType::from_u8(value).unwrap()`. -/
def reserveTypeFromU8 (value : UInt8) : Unpacked ReserveType :=
  byByte value (pure .regular) (pure .isolated) (liftM (none : Option ReserveType))

/-- The two limits that are `u64::MAX` in accounts older than the field. -/
def orUnlimited (value : UInt64) : UInt64 := if value = 0 then UInt64.ofNat u64Max else value

def RateLimiter.unpackFromSlice (src : ByteArr rateLimiterLen) : Unpacked RateLimiter :=
  pure
    { config :=
        { maxOutflow := u64FromLeBytes (src.slice 0 8 (by decide))
          windowDuration := u64FromLeBytes (src.slice 8 8 (by decide)) }
      prevQty := unpackDecimal (src.slice 16 16 (by decide))
      windowStart := u64FromLeBytes (src.slice 32 8 (by decide))
      curQty := unpackDecimal (src.slice 40 16 (by decide)) }

def maxProtocolLiquidationFeeDecaBps : UInt8 := 50

/-- The record, once the parts that can fail are there. -/
def Reserve.ofArray (input : ByteArr reserveLen) (stale : Bool) (extraMarketPrice : Option Decimal)
    (reserveType : ReserveType) (rateLimiter : RateLimiter) : Reserve :=
  let version := u8FromLeBytes (Field.version.of input)
  let optimalUtilizationRate := u8FromLeBytes (Field.configOptimalUtilizationRate.of input)
  let maxBorrowRate := u8FromLeBytes (Field.configMaxBorrowRate.of input)
  let liquidationBonus := u8FromLeBytes (Field.configLiquidationBonus.of input)
  let maxLiquidationBonus :=
    max liquidationBonus (u8FromLeBytes (Field.configMaxLiquidationBonus.of input))
  let liquidationThreshold := u8FromLeBytes (Field.configLiquidationThreshold.of input)
  let maxLiquidationThreshold :=
    max liquidationThreshold (u8FromLeBytes (Field.configMaxLiquidationThreshold.of input))
  let extraOracle := pubkeyNewFromArray (Field.configExtraOraclePubkey.of input)
  { version
    lastUpdate := { slot := u64FromLeBytes (Field.lastUpdateSlot.of input), stale }
    lendingMarket := pubkeyNewFromArray (Field.lendingMarket.of input)
    liquidity :=
      { mintPubkey := pubkeyNewFromArray (Field.liquidityMintPubkey.of input)
        mintDecimals := u8FromLeBytes (Field.liquidityMintDecimals.of input)
        supplyPubkey := pubkeyNewFromArray (Field.liquiditySupplyPubkey.of input)
        pythOraclePubkey := pubkeyNewFromArray (Field.liquidityPythOraclePubkey.of input)
        switchboardOraclePubkey :=
          pubkeyNewFromArray (Field.liquiditySwitchboardOraclePubkey.of input)
        availableAmount := u64FromLeBytes (Field.liquidityAvailableAmount.of input)
        borrowedAmountWads := unpackDecimal (Field.liquidityBorrowedAmountWads.of input)
        cumulativeBorrowRateWads :=
          unpackDecimal (Field.liquidityCumulativeBorrowRateWads.of input)
        accumulatedProtocolFeesWads :=
          unpackDecimal (Field.liquidityAccumulatedProtocolFeesWads.of input)
        marketPrice := unpackDecimal (Field.liquidityMarketPrice.of input)
        smoothedMarketPrice := unpackDecimal (Field.liquiditySmoothedMarketPrice.of input)
        extraMarketPrice }
    collateral :=
      { mintPubkey := pubkeyNewFromArray (Field.collateralMintPubkey.of input)
        mintTotalSupply := u64FromLeBytes (Field.collateralMintTotalSupply.of input)
        supplyPubkey := pubkeyNewFromArray (Field.collateralSupplyPubkey.of input) }
    config :=
      { optimalUtilizationRate
        maxUtilizationRate :=
          max optimalUtilizationRate (u8FromLeBytes (Field.configMaxUtilizationRate.of input))
        loanToValueRatio := u8FromLeBytes (Field.configLoanToValueRatio.of input)
        liquidationBonus
        maxLiquidationBonus
        liquidationThreshold
        maxLiquidationThreshold
        minBorrowRate := u8FromLeBytes (Field.configMinBorrowRate.of input)
        optimalBorrowRate := u8FromLeBytes (Field.configOptimalBorrowRate.of input)
        maxBorrowRate
        superMaxBorrowRate :=
          max maxBorrowRate.toUInt64 (u64FromLeBytes (Field.configSuperMaxBorrowRate.of input))
        fees :=
          { borrowFeeWad := u64FromLeBytes (Field.configFeesBorrowFeeWad.of input)
            flashLoanFeeWad := u64FromLeBytes (Field.configFeesFlashLoanFeeWad.of input)
            hostFeePercentage := u8FromLeBytes (Field.configFeesHostFeePercentage.of input) }
        depositLimit := u64FromLeBytes (Field.configDepositLimit.of input)
        borrowLimit := u64FromLeBytes (Field.configBorrowLimit.of input)
        feeReceiver := pubkeyNewFromArray (Field.configFeeReceiver.of input)
        protocolLiquidationFee :=
          min (u8FromLeBytes (Field.configProtocolLiquidationFee.of input))
            maxProtocolLiquidationFeeDecaBps
        protocolTakeRate := u8FromLeBytes (Field.configProtocolTakeRate.of input)
        addedBorrowWeightBps := u64FromLeBytes (Field.configAddedBorrowWeightBps.of input)
        reserveType
        scaledPriceOffsetBps := i64FromLeBytes (Field.configScaledPriceOffsetBps.of input)
        extraOraclePubkey := if extraOracle = Pubkey.default then none else some extraOracle
        attributedBorrowLimitOpen :=
          orUnlimited (u64FromLeBytes (Field.configAttributedBorrowLimitOpen.of input))
        attributedBorrowLimitClose :=
          orUnlimited (u64FromLeBytes (Field.configAttributedBorrowLimitClose.of input)) }
    rateLimiter
    attributedBorrowValue := unpackDecimal (Field.attributedBorrowValue.of input) }

/-- What is left of `unpack_from_slice` once the slice is an array. -/
def Reserve.unpackArray (input : ByteArr reserveLen) : Unpacked Reserve := do
  if programVersion < u8FromLeBytes (Field.version.of input) then throw .invalidAccountData
  let stale ← unpackBool (Field.lastUpdateStale.of input)
  let extraMarketPrice ← unpackExtraMarketPrice (Field.liquidityExtraMarketPriceFlag.of input)
    (Field.liquidityExtraMarketPrice.of input)
  let reserveType ← reserveTypeFromU8 (u8FromLeBytes (Field.configAssetType.of input))
  let rateLimiter ← RateLimiter.unpackFromSlice (Field.rateLimiter.of input)
  return ofArray input stale extraMarketPrice reserveType rateLimiter

/-- `array_ref!` panics on a short slice and leaves the end of a long one unread. -/
def Reserve.unpackFromSlice (input : List UInt8) : Unpacked Reserve :=
  if h : reserveLen ≤ input.length then
    unpackArray ⟨input.take reserveLen, List.length_take_of_le h⟩
  else liftM (none : Option Reserve)

/-! ## What unpacks -/

/-- The byte at `i`. -/
def byteAt (data : List UInt8) (i : Nat) : UInt8 := data.getD i 0

/-- The three bytes that are checked before the asset type is: the version, the
staleness and the flag of the extra price. -/
structure Checked (data : List UInt8) : Prop where
  version : byteAt data 0 ≤ programVersion
  stale : byteAt data 9 ≤ 1
  extraMarketPriceFlag : byteAt data 521 ≤ 1

theorem u8FromLeBytes_slice {len : Nat} (input : ByteArr len) (offset : Nat)
    (h : offset + 1 ≤ len) : u8FromLeBytes (input.slice offset 1 h) = byteAt input.1 offset := by
  have hlen : offset < input.1.length := by
    have := input.2
    omega
  unfold u8FromLeBytes ByteArr.slice byteAt
  dsimp only
  rw [List.drop_eq_getElem_cons hlen, List.take_succ_cons, List.headD_cons, List.getD,
    List.getElem?_eq_getElem hlen, Option.getD_some]

theorem eq_zero_or_one {value : UInt8} (h : value ≤ 1) : value = 0 ∨ value = 1 := by
  have hle := UInt8.le_iff_toNat_le.mp h
  rcases Nat.le_one_iff_eq_zero_or_eq_one.mp hle with h | h
  · exact Or.inl (UInt8.toNat_inj.mp h)
  · exact Or.inr (UInt8.toNat_inj.mp h)

theorem byByte_of_le {α : Type} {value : UInt8} (h : value ≤ 1) (zero one : α)
    (other : Unpacked α) : ∃ a, byByte value (pure zero) (pure one) other = pure a := by
  rcases eq_zero_or_one h with rfl | rfl
  · exact ⟨zero, rfl⟩
  · exact ⟨one, rfl⟩

theorem byByte_of_not_le {α : Type} {value : UInt8} (h : ¬ value ≤ 1)
    (zero one other : Unpacked α) : byByte value zero one other = other := by
  unfold byByte
  split
  · exact absurd (by decide) h
  · exact absurd (by decide) h
  · rfl

section

variable (input : ByteArr reserveLen)

theorem version_of : u8FromLeBytes (Field.version.of input) = byteAt input.1 0 :=
  u8FromLeBytes_slice input 0 (by decide)

theorem stale_of : u8FromLeBytes (Field.lastUpdateStale.of input) = byteAt input.1 9 :=
  u8FromLeBytes_slice input 9 (by decide)

theorem extraMarketPriceFlag_of :
    u8FromLeBytes (Field.liquidityExtraMarketPriceFlag.of input) = byteAt input.1 521 :=
  u8FromLeBytes_slice input 521 (by decide)

theorem assetType_of : u8FromLeBytes (Field.configAssetType.of input) = byteAt input.1 469 :=
  u8FromLeBytes_slice input 469 (by decide)

/-- An array that passes the three checks is read up to its asset type. -/
theorem unpackArray_of_checked (h : Checked input.1) :
    ∃ stale extraMarketPrice, Reserve.unpackArray input =
      (do
        let reserveType ← reserveTypeFromU8 (byteAt input.1 469)
        let rateLimiter ← RateLimiter.unpackFromSlice (Field.rateLimiter.of input)
        return Reserve.ofArray input stale extraMarketPrice reserveType rateLimiter) := by
  obtain ⟨stale, hstale⟩ : ∃ stale, unpackBool (Field.lastUpdateStale.of input) = pure stale :=
    byByte_of_le (by rw [stale_of]; exact h.stale) _ _ _
  obtain ⟨extra, hextra⟩ : ∃ extra, unpackExtraMarketPrice
      (Field.liquidityExtraMarketPriceFlag.of input) (Field.liquidityExtraMarketPrice.of input) =
        pure extra :=
    byByte_of_le (by rw [extraMarketPriceFlag_of]; exact h.extraMarketPriceFlag) _ _ _
  have hversion : ¬ programVersion < byteAt input.1 0 := UInt8.not_lt.mpr h.version
  refine ⟨stale, extra, ?_⟩
  simp only [Reserve.unpackArray, version_of, hversion, ↓reduceIte, hstale, hextra, pure_bind,
    assetType_of]

theorem unpackArray_of_not_checked (h : ¬ Checked input.1) :
    Reserve.unpackArray input = throw .invalidAccountData := by
  by_cases hversion : programVersion < byteAt input.1 0
  · simp only [Reserve.unpackArray, version_of, hversion, ↓reduceIte]
    rfl
  · simp only [Reserve.unpackArray, version_of, hversion, ↓reduceIte]
    by_cases hstale : byteAt input.1 9 ≤ 1
    · have hflag : ¬ byteAt input.1 521 ≤ 1 := fun hflag =>
        h ⟨UInt8.not_lt.mp hversion, hstale, hflag⟩
      obtain ⟨stale, heq⟩ : ∃ stale, unpackBool (Field.lastUpdateStale.of input) = pure stale :=
        byByte_of_le (by rw [stale_of]; exact hstale) _ _ _
      have hthrow : unpackExtraMarketPrice (Field.liquidityExtraMarketPriceFlag.of input)
          (Field.liquidityExtraMarketPrice.of input) = throw .invalidAccountData :=
        byByte_of_not_le (by rw [extraMarketPriceFlag_of]; exact hflag) _ _ _
      rw [heq, pure_bind, hthrow]
      rfl
    · have hthrow : unpackBool (Field.lastUpdateStale.of input) = throw .invalidAccountData :=
        byByte_of_not_le (by rw [stale_of]; exact hstale) _ _ _
      rw [hthrow]
      rfl

end

variable {data : List UInt8}

theorem byteAt_take {i : Nat} (h : i < reserveLen) :
    byteAt (data.take reserveLen) i = byteAt data i := by
  rw [byteAt, byteAt, List.getD, List.getD, List.getElem?_take_of_lt h]

theorem checked_take : Checked (data.take reserveLen) ↔ Checked data := by
  constructor
  · intro h
    have hversion := h.version
    have hstale := h.stale
    have hflag := h.extraMarketPriceFlag
    rw [byteAt_take (by decide)] at hversion hstale hflag
    exact ⟨hversion, hstale, hflag⟩
  · intro h
    refine ⟨?_, ?_, ?_⟩
    · rw [byteAt_take (by decide)]
      exact h.version
    · rw [byteAt_take (by decide)]
      exact h.stale
    · rw [byteAt_take (by decide)]
      exact h.extraMarketPriceFlag

/-- A slice shorter than a reserve panics. -/
theorem unpackFromSlice_short (h : data.length < reserveLen) :
    (Reserve.unpackFromSlice data).run = none := by
  rw [Reserve.unpackFromSlice, dif_neg (by omega)]
  rfl

/-- A version or a flag out of range is an error. -/
theorem unpackFromSlice_err (hlen : reserveLen ≤ data.length) (h : ¬ Checked data) :
    (Reserve.unpackFromSlice data).run = some (.error .invalidAccountData) := by
  rw [Reserve.unpackFromSlice, dif_pos hlen,
    unpackArray_of_not_checked _ fun hchecked => h (checked_take.mp hchecked)]
  rfl

/-- An unknown asset type panics. -/
theorem unpackFromSlice_assetType (hlen : reserveLen ≤ data.length) (h : Checked data)
    (htype : ¬ byteAt data 469 ≤ 1) : (Reserve.unpackFromSlice data).run = none := by
  rw [Reserve.unpackFromSlice, dif_pos hlen]
  obtain ⟨stale, extra, heq⟩ := unpackArray_of_checked
    ⟨data.take reserveLen, List.length_take_of_le hlen⟩ (checked_take.mpr h)
  rw [heq, byteAt_take (by decide), reserveTypeFromU8, byByte_of_not_le htype]
  rfl

/-- Everything else is read as a reserve, whatever its length and version. -/
theorem unpackFromSlice_ok (hlen : reserveLen ≤ data.length) (h : Checked data)
    (htype : byteAt data 469 ≤ 1) : ∃ reserve,
      (Reserve.unpackFromSlice data).run = some (.ok reserve) ∧
        reserve.version = byteAt data 0 := by
  rw [Reserve.unpackFromSlice, dif_pos hlen]
  obtain ⟨stale, extra, heq⟩ := unpackArray_of_checked
    ⟨data.take reserveLen, List.length_take_of_le hlen⟩ (checked_take.mpr h)
  obtain ⟨reserveType, htype⟩ : ∃ reserveType,
      reserveTypeFromU8 (byteAt data 469) = pure reserveType :=
    byByte_of_le htype _ _ _
  rw [heq, byteAt_take (by decide), htype, pure_bind]
  refine ⟨_, rfl, ?_⟩
  exact (version_of _).trans (byteAt_take (by decide))

end Solend

end Gyrfalcon
