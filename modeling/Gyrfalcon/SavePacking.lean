import Gyrfalcon.Lib.Layout
import Gyrfalcon.SaveObligation
import Gyrfalcon.SaveRateLimiter

/-!
# Packed Solend accounts (`patches/solend-sdk/src/state`)

`pack_into_slice` of a rate limiter, a reserve and a lending market, the
`unpack_from_slice` of a market, and the round trips.  Packing writes over the
bytes of the account and leaves its padding as it was; `none` is a panic, of a
short slice or of a decimal above 128 bits.

Unpacking fills in what accounts of older versions lack, so the round trip returns
the record as such an upgrade would leave it (`unpack_pack_reserve`,
`unpack_pack_market`).
-/

namespace Gyrfalcon

open ByteCodec Layout

namespace Solend

/-! ## Scalars -/

/-- `u8::to_le_bytes`. -/
def u8ToLeBytes (value : UInt8) : ByteArr 1 := ⟨[value], rfl⟩

/-- `u64::to_le_bytes`. -/
def u64ToLeBytes (value : UInt64) : ByteArr 8 := ⟨leBytes 8 value.toNat, length_leBytes _ _⟩

/-- `i64::to_le_bytes`. -/
def i64ToLeBytes (value : Int64) : ByteArr 8 := u64ToLeBytes value.toUInt64

/-- `Pubkey::as_ref`. -/
def pubkeyAsRef (key : Pubkey) : ByteArr 32 := ⟨key.bytes, key.length_eq⟩

def packDecimal (decimal : Decimal) : Option (ByteArr 16) :=
  if decimal.scaledVal < u128Bound then
    some ⟨leBytes 16 decimal.scaledVal, length_leBytes _ _⟩
  else none

def packBool (boolean : Bool) : ByteArr 1 := u8ToLeBytes (if boolean then 1 else 0)

/-- A key, or zeroes. -/
def packKey (key : Option Pubkey) : ByteArr 32 := pubkeyAsRef (key.getD Pubkey.default)

/-- `reserve_type as u8`. -/
def reserveTypeAsU8 : ReserveType → UInt8
  | .regular => 0
  | .isolated => 1

@[simp] theorem u8FromLeBytes_toLeBytes (value : UInt8) :
    u8FromLeBytes (u8ToLeBytes value) = value := rfl

@[simp] theorem u64FromLeBytes_toLeBytes (value : UInt64) :
    u64FromLeBytes (u64ToLeBytes value) = value := by
  have hlt : value.toNat < 256 ^ 8 := value.toNat_lt
  rw [u64FromLeBytes, u64ToLeBytes, leVal_leBytes, Nat.mod_eq_of_lt hlt, UInt64.ofNat_toNat]

@[simp] theorem i64FromLeBytes_toLeBytes (value : Int64) :
    i64FromLeBytes (i64ToLeBytes value) = value := by
  rw [i64FromLeBytes, i64ToLeBytes, u64FromLeBytes_toLeBytes]
  rfl

@[simp] theorem pubkeyNewFromArray_asRef (key : Pubkey) :
    pubkeyNewFromArray (pubkeyAsRef key) = key := rfl

theorem packDecimal_eq_some_iff {decimal : Decimal} {bytes : ByteArr 16} :
    packDecimal decimal = some bytes ↔ decimal.scaledVal < u128Bound ∧
      ⟨leBytes 16 decimal.scaledVal, length_leBytes _ _⟩ = bytes := by
  unfold packDecimal
  split <;> simp_all

theorem unpackDecimal_of_pack {decimal : Decimal} {bytes : ByteArr 16}
    (h : packDecimal decimal = some bytes) : unpackDecimal bytes = decimal := by
  obtain ⟨hlt, rfl⟩ := packDecimal_eq_some_iff.mp h
  refine Decimal.ext ?_
  rw [unpackDecimal, leVal_leBytes, Nat.mod_eq_of_lt (show decimal.scaledVal < 256 ^ 16 from hlt)]

theorem exists_packDecimal_iff {decimal : Decimal} :
    (∃ bytes, packDecimal decimal = some bytes) ↔ decimal.scaledVal < u128Bound := by
  simp only [packDecimal_eq_some_iff, exists_and_left, exists_eq', and_true]

@[simp] theorem unpackBool_packBool (boolean : Bool) :
    unpackBool (packBool boolean) = pure boolean := by
  cases boolean with
  | false => rfl
  | true => rfl

theorem pubkeyNewFromArray_packKey (key : Option Pubkey) :
    (if pubkeyNewFromArray (packKey key) = Pubkey.default then none
      else some (pubkeyNewFromArray (packKey key))) =
        key.filter (· ≠ Pubkey.default) := by
  rw [packKey, pubkeyNewFromArray_asRef]
  cases key with
  | none => rfl
  | some key =>
    by_cases h : key = Pubkey.default
    · simp [Option.filter, h]
    · simp [Option.filter, h]

/-! ## Slices -/

section Slices

variable {α : Type} {len : Nat}

/-- `array_mut_ref!` panics on a short slice and leaves the end of a long one alone. -/
def arrayMutRef (pack : ByteArr len → Option (ByteArr len)) (output : List UInt8) :
    Option (List UInt8) :=
  if h : len ≤ output.length then
    (pack ⟨output.take len, List.length_take_of_le h⟩).map fun packed =>
      packed.1 ++ output.drop len
  else none

/-- `array_ref!`. -/
def arrayRef (unpack : ByteArr len → Unpacked α) (input : List UInt8) : Unpacked α :=
  if h : len ≤ input.length then unpack ⟨input.take len, List.length_take_of_le h⟩
  else liftM (none : Option α)

variable {pack : ByteArr len → Option (ByteArr len)} {output packed : List UInt8}

theorem arrayMutRef_eq_some_iff :
    arrayMutRef pack output = some packed ↔ ∃ h : len ≤ output.length, ∃ array,
      pack ⟨output.take len, List.length_take_of_le h⟩ = some array ∧
        array.1 ++ output.drop len = packed := by
  unfold arrayMutRef
  by_cases h : len ≤ output.length
  · rw [dif_pos h, Option.map_eq_some_iff]
    exact ⟨fun hpacked => ⟨h, hpacked⟩, fun ⟨_, hpacked⟩ => hpacked⟩
  · rw [dif_neg h]
    exact iff_of_false (nomatch ·) fun ⟨hlen, _⟩ => h hlen

/-- Packing goes through on a slice that is long enough, whatever is in it. -/
theorem exists_arrayMutRef_iff {ok : Prop} (hok : ∀ array, (∃ new, pack array = some new) ↔ ok) :
    (∃ packed, arrayMutRef pack output = some packed) ↔ len ≤ output.length ∧ ok := by
  simp only [arrayMutRef_eq_some_iff]
  constructor
  · rintro ⟨_, hlen, array, harray, -⟩
    exact ⟨hlen, (hok _).mp ⟨array, harray⟩⟩
  · rintro ⟨hlen, h⟩
    obtain ⟨array, harray⟩ := (hok ⟨output.take len, List.length_take_of_le hlen⟩).mpr h
    exact ⟨_, hlen, array, harray, rfl⟩

theorem arrayRef_append (unpack : ByteArr len → Unpacked α) (array : ByteArr len)
    (rest : List UInt8) : arrayRef unpack (array.1 ++ rest) = unpack array := by
  have hlen : len ≤ (array.1 ++ rest).length := by
    rw [List.length_append, array.2]
    exact Nat.le_add_right _ _
  have htake : (array.1 ++ rest).take len = array.1 := List.take_left' array.2
  rw [arrayRef, dif_pos hlen]
  exact congrArg unpack (Subtype.ext htake)

/-- Where the block ends as it did, so does the slice. -/
theorem drop_arrayMutRef {start : Nat} (hstart : start ≤ len)
    (hpack : ∀ old new, pack old = some new → new.1.drop start = old.1.drop start)
    (h : arrayMutRef pack output = some packed) :
    packed.length = output.length ∧ packed.drop start = output.drop start := by
  obtain ⟨hlen, array, harray, rfl⟩ := arrayMutRef_eq_some_iff.mp h
  constructor
  · rw [List.length_append, array.2, List.length_drop]
    omega
  · rw [List.drop_append_of_le_length (by rw [array.2]; exact hstart), hpack _ _ harray,
      ← List.drop_append_of_le_length (by rw [List.length_take_of_le hlen]; exact hstart),
      List.take_append_drop]

end Slices

/-! ## Rate limiters -/

def RateLimiter.packIntoSlice (self : RateLimiter) : Option (ByteArr rateLimiterLen) := do
  let prevQty ← packDecimal self.prevQty
  let curQty ← packDecimal self.curQty
  return ⟨(u64ToLeBytes self.config.maxOutflow).1 ++ (u64ToLeBytes self.config.windowDuration).1 ++
    prevQty.1 ++ (u64ToLeBytes self.windowStart).1 ++ curQty.1, by
      simp [prevQty.2, curQty.2, (u64ToLeBytes _).2, rateLimiterLen]⟩

/-- A part of a block at its place. -/
theorem slice_eq {len offset n : Nat} {input : ByteArr len} (h : offset + n ≤ len)
    (before : List UInt8) (part : ByteArr n) (after : List UInt8) (hbefore : before.length = offset)
    (hinput : input.1 = before ++ (part.1 ++ after)) : input.slice offset n h = part := by
  refine Subtype.ext ?_
  change (input.1.drop offset).take n = part.1
  rw [hinput, List.drop_left' hbefore, List.take_left' part.2]

theorem RateLimiter.unpack_pack {self : RateLimiter} {bytes : ByteArr rateLimiterLen}
    (h : self.packIntoSlice = some bytes) : RateLimiter.unpackFromSlice bytes = pure self := by
  simp only [packIntoSlice, Option.bind_eq_bind, Option.bind_eq_some_iff, Option.pure_def,
    Option.some.injEq] at h
  obtain ⟨prevQty, hprev, curQty, hcur, hbytes⟩ := h
  obtain ⟨maxOutflow, hmax⟩ : ∃ part, u64ToLeBytes self.config.maxOutflow = part := ⟨_, rfl⟩
  obtain ⟨duration, hduration⟩ : ∃ part, u64ToLeBytes self.config.windowDuration = part := ⟨_, rfl⟩
  obtain ⟨start, hstart⟩ : ∃ part, u64ToLeBytes self.windowStart = part := ⟨_, rfl⟩
  have hparts : bytes.1 = maxOutflow.1 ++ (duration.1 ++ (prevQty.1 ++ (start.1 ++ curQty.1))) := by
    rw [← hmax, ← hduration, ← hstart, ← hbytes]
    simp only [List.append_assoc]
  have hmaxOf : bytes.slice 0 8 (by decide) = maxOutflow := slice_eq _ [] _ _ rfl hparts
  have hdurationOf : bytes.slice 8 8 (by decide) = duration :=
    slice_eq _ maxOutflow.1 _ _ maxOutflow.2 hparts
  have hprevOf : bytes.slice 16 16 (by decide) = prevQty :=
    slice_eq _ (maxOutflow.1 ++ duration.1) _ (start.1 ++ curQty.1)
      (by simp [maxOutflow.2, duration.2])
      (by simp only [hparts, List.append_assoc])
  have hstartOf : bytes.slice 32 8 (by decide) = start :=
    slice_eq _ (maxOutflow.1 ++ duration.1 ++ prevQty.1) _ curQty.1
      (by simp [maxOutflow.2, duration.2, prevQty.2]) (by simp only [hparts, List.append_assoc])
  have hcurOf : bytes.slice 40 16 (by decide) = curQty :=
    slice_eq _ (maxOutflow.1 ++ duration.1 ++ prevQty.1 ++ start.1) _ []
      (by simp [maxOutflow.2, duration.2, prevQty.2, start.2])
      (by simp only [hparts, List.append_assoc, List.append_nil])
  rw [unpackFromSlice, hmaxOf, hdurationOf, hprevOf, hstartOf, hcurOf, unpackDecimal_of_pack hprev,
    unpackDecimal_of_pack hcur, ← hmax, ← hduration, ← hstart]
  simp only [u64FromLeBytes_toLeBytes]

/-! ## Reserves -/

theorem nodup_layout : (layout.map Prod.fst).Nodup := by decide +kernel

theorem Field.mem_layout (field : Field) : field ∈ layout.map Prod.fst := by
  cases field <;> decide

/-- The fields written one after the other. -/
def Field.write (part : (field : Field) → ByteArr field.width) : ByteArr reserveLen :=
  record nodup_layout part

theorem Field.of_write (part : (field : Field) → ByteArr field.width) (field : Field) :
    field.of (Field.write part) = part field :=
  field_record nodup_layout part field.mem_layout

/-- What is written of a reserve, once its decimals and its rate limiter are packed. -/
def Reserve.part (self : Reserve) (output : ByteArr reserveLen)
    (borrowedAmountWads cumulativeBorrowRateWads accumulatedProtocolFeesWads marketPrice
      smoothedMarketPrice extraMarketPrice attributedBorrowValue : ByteArr 16)
    (rateLimiter : ByteArr rateLimiterLen) : (field : Field) → ByteArr field.width
  | .version => u8ToLeBytes self.version
  | .lastUpdateSlot => u64ToLeBytes self.lastUpdate.slot
  | .lastUpdateStale => packBool self.lastUpdate.stale
  | .lendingMarket => pubkeyAsRef self.lendingMarket
  | .liquidityMintPubkey => pubkeyAsRef self.liquidity.mintPubkey
  | .liquidityMintDecimals => u8ToLeBytes self.liquidity.mintDecimals
  | .liquiditySupplyPubkey => pubkeyAsRef self.liquidity.supplyPubkey
  | .liquidityPythOraclePubkey => pubkeyAsRef self.liquidity.pythOraclePubkey
  | .liquiditySwitchboardOraclePubkey => pubkeyAsRef self.liquidity.switchboardOraclePubkey
  | .liquidityAvailableAmount => u64ToLeBytes self.liquidity.availableAmount
  | .liquidityBorrowedAmountWads => borrowedAmountWads
  | .liquidityCumulativeBorrowRateWads => cumulativeBorrowRateWads
  | .liquidityMarketPrice => marketPrice
  | .collateralMintPubkey => pubkeyAsRef self.collateral.mintPubkey
  | .collateralMintTotalSupply => u64ToLeBytes self.collateral.mintTotalSupply
  | .collateralSupplyPubkey => pubkeyAsRef self.collateral.supplyPubkey
  | .configOptimalUtilizationRate => u8ToLeBytes self.config.optimalUtilizationRate
  | .configLoanToValueRatio => u8ToLeBytes self.config.loanToValueRatio
  | .configLiquidationBonus => u8ToLeBytes self.config.liquidationBonus
  | .configLiquidationThreshold => u8ToLeBytes self.config.liquidationThreshold
  | .configMinBorrowRate => u8ToLeBytes self.config.minBorrowRate
  | .configOptimalBorrowRate => u8ToLeBytes self.config.optimalBorrowRate
  | .configMaxBorrowRate => u8ToLeBytes self.config.maxBorrowRate
  | .configFeesBorrowFeeWad => u64ToLeBytes self.config.fees.borrowFeeWad
  | .configFeesFlashLoanFeeWad => u64ToLeBytes self.config.fees.flashLoanFeeWad
  | .configFeesHostFeePercentage => u8ToLeBytes self.config.fees.hostFeePercentage
  | .configDepositLimit => u64ToLeBytes self.config.depositLimit
  | .configBorrowLimit => u64ToLeBytes self.config.borrowLimit
  | .configFeeReceiver => pubkeyAsRef self.config.feeReceiver
  | .configProtocolLiquidationFee => u8ToLeBytes self.config.protocolLiquidationFee
  | .configProtocolTakeRate => u8ToLeBytes self.config.protocolTakeRate
  | .liquidityAccumulatedProtocolFeesWads => accumulatedProtocolFeesWads
  | .rateLimiter => rateLimiter
  | .configAddedBorrowWeightBps => u64ToLeBytes self.config.addedBorrowWeightBps
  | .liquiditySmoothedMarketPrice => smoothedMarketPrice
  | .configAssetType => u8ToLeBytes (reserveTypeAsU8 self.config.reserveType)
  | .configMaxUtilizationRate => u8ToLeBytes self.config.maxUtilizationRate
  | .configSuperMaxBorrowRate => u64ToLeBytes self.config.superMaxBorrowRate
  | .configMaxLiquidationBonus => u8ToLeBytes self.config.maxLiquidationBonus
  | .configMaxLiquidationThreshold => u8ToLeBytes self.config.maxLiquidationThreshold
  | .configScaledPriceOffsetBps => i64ToLeBytes self.config.scaledPriceOffsetBps
  | .configExtraOraclePubkey => packKey self.config.extraOraclePubkey
  | .liquidityExtraMarketPriceFlag => packBool self.liquidity.extraMarketPrice.isSome
  | .liquidityExtraMarketPrice => extraMarketPrice
  | .attributedBorrowValue => attributedBorrowValue
  | .configAttributedBorrowLimitOpen => u64ToLeBytes self.config.attributedBorrowLimitOpen
  | .configAttributedBorrowLimitClose => u64ToLeBytes self.config.attributedBorrowLimitClose
  | .padding => Field.padding.of output

def Reserve.packArray (self : Reserve) (output : ByteArr reserveLen) :
    Option (ByteArr reserveLen) := do
  let borrowedAmountWads ← packDecimal self.liquidity.borrowedAmountWads
  let cumulativeBorrowRateWads ← packDecimal self.liquidity.cumulativeBorrowRateWads
  let accumulatedProtocolFeesWads ← packDecimal self.liquidity.accumulatedProtocolFeesWads
  let marketPrice ← packDecimal self.liquidity.marketPrice
  let smoothedMarketPrice ← packDecimal self.liquidity.smoothedMarketPrice
  let extraMarketPrice ← packDecimal (self.liquidity.extraMarketPrice.getD .zero)
  let rateLimiter ← self.rateLimiter.packIntoSlice
  let attributedBorrowValue ← packDecimal self.attributedBorrowValue
  return Field.write (self.part output borrowedAmountWads cumulativeBorrowRateWads
    accumulatedProtocolFeesWads marketPrice smoothedMarketPrice extraMarketPrice
    attributedBorrowValue rateLimiter)

def Reserve.packIntoSlice (self : Reserve) (output : List UInt8) : Option (List UInt8) :=
  arrayMutRef self.packArray output

/-- A configuration as unpacking leaves it: the bounds added later are at least those they
replace, a limit that was never set is none, and a key of zeroes is no key. -/
def upgradedConfig (config : ReserveConfig) : ReserveConfig :=
  { config with
    maxUtilizationRate := max config.optimalUtilizationRate config.maxUtilizationRate
    maxLiquidationBonus := max config.liquidationBonus config.maxLiquidationBonus
    maxLiquidationThreshold := max config.liquidationThreshold config.maxLiquidationThreshold
    superMaxBorrowRate := max config.maxBorrowRate.toUInt64 config.superMaxBorrowRate
    protocolLiquidationFee := min config.protocolLiquidationFee maxProtocolLiquidationFeeDecaBps
    extraOraclePubkey := config.extraOraclePubkey.filter (· ≠ Pubkey.default)
    attributedBorrowLimitOpen := orUnlimited config.attributedBorrowLimitOpen
    attributedBorrowLimitClose := orUnlimited config.attributedBorrowLimitClose }

def Reserve.upgraded (self : Reserve) : Reserve :=
  { self with config := upgradedConfig self.config }

theorem unpackExtraMarketPrice_pack {price : Option Decimal} {bytes : ByteArr 16}
    (h : packDecimal (price.getD .zero) = some bytes) :
    unpackExtraMarketPrice (packBool price.isSome) bytes = pure price := by
  cases price with
  | none => rfl
  | some price =>
    have hprice := unpackDecimal_of_pack h
    rw [Option.getD_some] at hprice
    rw [← hprice]
    rfl

theorem reserveTypeFromU8_asU8 (reserveType : ReserveType) :
    reserveTypeFromU8 (reserveTypeAsU8 reserveType) = pure reserveType := by
  cases reserveType with
  | regular => rfl
  | isolated => rfl

theorem Reserve.unpackArray_packArray {self : Reserve} {output packed : ByteArr reserveLen}
    (h : self.packArray output = some packed) (hversion : self.version ≤ programVersion) :
    Reserve.unpackArray packed = pure self.upgraded := by
  simp only [packArray, Option.bind_eq_bind, Option.bind_eq_some_iff, Option.pure_def,
    Option.some.injEq] at h
  obtain ⟨_, hborrowed, _, hcumulative, _, hfees, _, hprice, _, hsmoothed, _, hextra, _, hlimiter, _,
    hattributed, rfl⟩ := h
  simp only [unpackArray, ofArray, Field.of_write, part, u8FromLeBytes_toLeBytes,
    if_neg (UInt8.not_lt.mpr hversion), unpackBool_packBool, unpackExtraMarketPrice_pack hextra,
    reserveTypeFromU8_asU8, RateLimiter.unpack_pack hlimiter, pure_bind, u64FromLeBytes_toLeBytes,
    i64FromLeBytes_toLeBytes, pubkeyNewFromArray_asRef, unpackDecimal_of_pack hborrowed,
    unpackDecimal_of_pack hcumulative, unpackDecimal_of_pack hfees, unpackDecimal_of_pack hprice,
    unpackDecimal_of_pack hsmoothed, unpackDecimal_of_pack hattributed, pubkeyNewFromArray_packKey]
  rfl

/-! ### What comes back -/

section Max

variable {α : Type} [LE α] [DecidableLE α] [Std.IsPreorder α] {a b : α}

theorem le_maxOfLe_left (a b : α) : a ≤ @max α maxOfLe a b := by
  by_cases h : a ≤ b
  · rw [show @max α maxOfLe a b = b from if_pos h]
    exact h
  · rw [show @max α maxOfLe a b = a from if_neg h]
    exact Std.le_refl a

theorem maxOfLe_eq_right_iff : @max α maxOfLe a b = b ↔ a ≤ b :=
  ⟨fun h => h ▸ le_maxOfLe_left a b, fun h => if_pos h⟩

end Max

theorem u8_min_eq_left_iff {a b : UInt8} : min a b = a ↔ a ≤ b :=
  ⟨fun h => h ▸ Std.min_le_right, fun h => if_pos h⟩

theorem orUnlimited_eq_self_iff {value : UInt64} : orUnlimited value = value ↔ value ≠ 0 := by
  unfold orUnlimited
  by_cases h : value = 0
  · subst h
    decide
  · simp [h]

theorem orUnlimited_ne_zero (value : UInt64) : orUnlimited value ≠ 0 := by
  unfold orUnlimited
  by_cases h : value = 0
  · rw [if_pos h]
    decide
  · rw [if_neg h]
    exact h

theorem filter_eq_self_iff {key : Option Pubkey} :
    key.filter (· ≠ Pubkey.default) = key ↔ key ≠ some Pubkey.default := by
  cases key with
  | none => simp
  | some key =>
    by_cases h : key = Pubkey.default
    · simp [Option.filter, h]
    · simp [Option.filter, h]

/-- A configuration with nothing left to fill in. -/
structure Current (config : ReserveConfig) : Prop where
  utilization : config.optimalUtilizationRate ≤ config.maxUtilizationRate
  bonus : config.liquidationBonus ≤ config.maxLiquidationBonus
  threshold : config.liquidationThreshold ≤ config.maxLiquidationThreshold
  borrowRate : config.maxBorrowRate.toUInt64 ≤ config.superMaxBorrowRate
  fee : config.protocolLiquidationFee ≤ maxProtocolLiquidationFeeDecaBps
  oracle : config.extraOraclePubkey ≠ some Pubkey.default
  limitOpen : config.attributedBorrowLimitOpen ≠ 0
  limitClose : config.attributedBorrowLimitClose ≠ 0

theorem upgradedConfig_eq_self_iff {config : ReserveConfig} :
    upgradedConfig config = config ↔ Current config := by
  constructor
  · intro h
    exact ⟨maxOfLe_eq_right_iff.mp (congrArg ReserveConfig.maxUtilizationRate h),
      maxOfLe_eq_right_iff.mp (congrArg ReserveConfig.maxLiquidationBonus h),
      maxOfLe_eq_right_iff.mp (congrArg ReserveConfig.maxLiquidationThreshold h),
      maxOfLe_eq_right_iff.mp (congrArg ReserveConfig.superMaxBorrowRate h),
      u8_min_eq_left_iff.mp (congrArg ReserveConfig.protocolLiquidationFee h),
      filter_eq_self_iff.mp (congrArg ReserveConfig.extraOraclePubkey h),
      orUnlimited_eq_self_iff.mp (congrArg ReserveConfig.attributedBorrowLimitOpen h),
      orUnlimited_eq_self_iff.mp (congrArg ReserveConfig.attributedBorrowLimitClose h)⟩
  · intro h
    rw [upgradedConfig, maxOfLe_eq_right_iff.mpr h.utilization, maxOfLe_eq_right_iff.mpr h.bonus,
      maxOfLe_eq_right_iff.mpr h.threshold, maxOfLe_eq_right_iff.mpr h.borrowRate,
      u8_min_eq_left_iff.mpr h.fee, filter_eq_self_iff.mpr h.oracle,
      orUnlimited_eq_self_iff.mpr h.limitOpen, orUnlimited_eq_self_iff.mpr h.limitClose]

/-- An accepted configuration lacks at most the oracle and the limits. -/
theorem current_iff_of_ok {config : ReserveConfig} (h : validateReserveConfig config = .ok ()) :
    Current config ↔ config.extraOraclePubkey ≠ some Pubkey.default ∧
      config.attributedBorrowLimitOpen ≠ 0 ∧ config.attributedBorrowLimitClose ≠ 0 := by
  constructor
  · intro hcurrent
    exact ⟨hcurrent.oracle, hcurrent.limitOpen, hcurrent.limitClose⟩
  · rintro ⟨horacle, hopen, hclose⟩
    have hvalid := validConfig_of_ok h
    refine ⟨UInt8.le_iff_toNat_le.mpr hvalid.optimal_le_max,
      UInt8.le_iff_toNat_le.mpr hvalid.bonus_le_max,
      UInt8.le_iff_toNat_le.mpr hvalid.threshold_le_max, UInt64.le_iff_toNat_le.mpr ?_, ?_, horacle,
      hopen, hclose⟩
    · simpa using hvalid.maxRate_le_super
    · exact fee_le_of_ok h

/-- The decimals fit. -/
structure Reserve.Packable (reserve : Reserve) : Prop where
  borrowed : reserve.liquidity.borrowedAmountWads.scaledVal < u128Bound
  cumulative : reserve.liquidity.cumulativeBorrowRateWads.scaledVal < u128Bound
  fees : reserve.liquidity.accumulatedProtocolFeesWads.scaledVal < u128Bound
  price : reserve.liquidity.marketPrice.scaledVal < u128Bound
  smoothed : reserve.liquidity.smoothedMarketPrice.scaledVal < u128Bound
  extra : (reserve.liquidity.extraMarketPrice.getD .zero).scaledVal < u128Bound
  prevQty : reserve.rateLimiter.prevQty.scaledVal < u128Bound
  curQty : reserve.rateLimiter.curQty.scaledVal < u128Bound
  attributed : reserve.attributedBorrowValue.scaledVal < u128Bound

theorem RateLimiter.exists_pack_iff {self : RateLimiter} :
    (∃ bytes, self.packIntoSlice = some bytes) ↔
      self.prevQty.scaledVal < u128Bound ∧ self.curQty.scaledVal < u128Bound := by
  simp only [packIntoSlice, Option.bind_eq_bind, Option.bind_eq_some_iff, Option.pure_def,
    Option.some.injEq, ← exists_packDecimal_iff]
  constructor
  · rintro ⟨_, prevQty, hprev, curQty, hcur, -⟩
    exact ⟨⟨prevQty, hprev⟩, curQty, hcur⟩
  · rintro ⟨⟨prevQty, hprev⟩, curQty, hcur⟩
    exact ⟨_, prevQty, hprev, curQty, hcur, rfl⟩

theorem Reserve.exists_packArray_iff {self : Reserve} {output : ByteArr reserveLen} :
    (∃ packed, self.packArray output = some packed) ↔ self.Packable := by
  simp only [packArray, Option.bind_eq_bind, Option.bind_eq_some_iff, Option.pure_def,
    Option.some.injEq]
  constructor
  · rintro ⟨_, _, hborrowed, _, hcumulative, _, hfees, _, hprice, _, hsmoothed, _, hextra, _,
      hlimiter, _, hattributed, -⟩
    obtain ⟨hprev, hcur⟩ := RateLimiter.exists_pack_iff.mp ⟨_, hlimiter⟩
    exact ⟨exists_packDecimal_iff.mp ⟨_, hborrowed⟩, exists_packDecimal_iff.mp ⟨_, hcumulative⟩,
      exists_packDecimal_iff.mp ⟨_, hfees⟩, exists_packDecimal_iff.mp ⟨_, hprice⟩,
      exists_packDecimal_iff.mp ⟨_, hsmoothed⟩, exists_packDecimal_iff.mp ⟨_, hextra⟩, hprev, hcur,
      exists_packDecimal_iff.mp ⟨_, hattributed⟩⟩
  · intro h
    obtain ⟨_, hborrowed⟩ := exists_packDecimal_iff.mpr h.borrowed
    obtain ⟨_, hcumulative⟩ := exists_packDecimal_iff.mpr h.cumulative
    obtain ⟨_, hfees⟩ := exists_packDecimal_iff.mpr h.fees
    obtain ⟨_, hprice⟩ := exists_packDecimal_iff.mpr h.price
    obtain ⟨_, hsmoothed⟩ := exists_packDecimal_iff.mpr h.smoothed
    obtain ⟨_, hextra⟩ := exists_packDecimal_iff.mpr h.extra
    obtain ⟨_, hlimiter⟩ := RateLimiter.exists_pack_iff.mpr ⟨h.prevQty, h.curQty⟩
    obtain ⟨_, hattributed⟩ := exists_packDecimal_iff.mpr h.attributed
    exact ⟨_, _, hborrowed, _, hcumulative, _, hfees, _, hprice, _, hsmoothed, _, hextra, _,
      hlimiter, _, hattributed, rfl⟩

theorem Field.drop_of_padding (array : ByteArr reserveLen) :
    (Field.padding.of array).1 = array.1.drop 570 :=
  @field_of_last _ _ layout _ Field.padding (by decide) array

/-- The padding, and what follows the reserve, stay as they were. -/
theorem Reserve.drop_packed {self : Reserve} {output packed : List UInt8}
    (h : self.packIntoSlice output = some packed) :
    packed.length = output.length ∧ packed.drop 570 = output.drop 570 := by
  refine drop_arrayMutRef (by decide) (fun old new hnew => ?_) h
  simp only [packArray, Option.bind_eq_bind, Option.bind_eq_some_iff, Option.pure_def,
    Option.some.injEq] at hnew
  obtain ⟨_, -, _, -, _, -, _, -, _, -, _, -, _, -, _, -, rfl⟩ := hnew
  rw [← Field.drop_of_padding, ← Field.drop_of_padding, Field.of_write]
  rfl

theorem Reserve.unpackFromSlice_append (array : ByteArr reserveLen) (rest : List UInt8) :
    Reserve.unpackFromSlice (array.1 ++ rest) = Reserve.unpackArray array :=
  arrayRef_append _ _ _

theorem Reserve.unpack_packed {self : Reserve} {output packed : List UInt8}
    (h : self.packIntoSlice output = some packed) (hversion : self.version ≤ programVersion) :
    (Reserve.unpackFromSlice packed).run = some (.ok self.upgraded) := by
  obtain ⟨hlen, array, harray, rfl⟩ := arrayMutRef_eq_some_iff.mp h
  rw [unpackFromSlice_append, unpackArray_packArray harray hversion]
  rfl

/-- A later version is packed all the same, and refused when it is read. -/
theorem Reserve.unpack_packed_later {self : Reserve} {output packed : List UInt8}
    (h : self.packIntoSlice output = some packed) (hversion : programVersion < self.version) :
    (Reserve.unpackFromSlice packed).run = some (.error .invalidAccountData) := by
  obtain ⟨hlen, array, harray, rfl⟩ := arrayMutRef_eq_some_iff.mp h
  have hread : u8FromLeBytes (Field.version.of array) = self.version := by
    simp only [packArray, Option.bind_eq_bind, Option.bind_eq_some_iff, Option.pure_def,
      Option.some.injEq] at harray
    obtain ⟨_, -, _, -, _, -, _, -, _, -, _, -, _, -, _, -, rfl⟩ := harray
    rw [Field.of_write]
    exact u8FromLeBytes_toLeBytes self.version
  rw [unpackFromSlice_append, unpackArray, hread, if_pos hversion]
  rfl

theorem Reserve.exists_pack_iff {self : Reserve} {output : List UInt8} :
    (∃ packed, self.packIntoSlice output = some packed) ↔
      reserveLen ≤ output.length ∧ self.Packable :=
  exists_arrayMutRef_iff fun _ => exists_packArray_iff

theorem Reserve.upgraded_eq_self_iff {self : Reserve} :
    self.upgraded = self ↔ Current self.config := by
  rw [← upgradedConfig_eq_self_iff]
  constructor
  · exact congrArg Reserve.config
  · intro h
    rw [upgraded, h]

/-- **A reserve through its account.**  Packing goes through exactly when the account is long
enough and the decimals fit; it changes neither the length nor the padding.  For an
accepted configuration and a version the program knows, what is unpacked is the reserve
that was packed exactly when its limits are set and its extra oracle is not the key of
zeroes. -/
theorem unpack_pack_reserve (reserve : Reserve) (output : List UInt8) :
    ((∃ packed, reserve.packIntoSlice output = some packed) ↔
        reserveLen ≤ output.length ∧ reserve.Packable) ∧
      ∀ packed, reserve.packIntoSlice output = some packed →
        packed.length = output.length ∧ packed.drop 570 = output.drop 570 ∧
          (validateReserveConfig reserve.config = .ok () → reserve.version ≤ programVersion →
            ∃ back, (Reserve.unpackFromSlice packed).run = some (.ok back) ∧
              (back = reserve ↔ reserve.config.extraOraclePubkey ≠ some Pubkey.default ∧
                reserve.config.attributedBorrowLimitOpen ≠ 0 ∧
                  reserve.config.attributedBorrowLimitClose ≠ 0)) := by
  refine ⟨Reserve.exists_pack_iff, fun packed hpacked => ?_⟩
  obtain ⟨hlength, hdrop⟩ := Reserve.drop_packed hpacked
  refine ⟨hlength, hdrop, fun hconfig hversion => ?_⟩
  refine ⟨reserve.upgraded, Reserve.unpack_packed hpacked hversion, ?_⟩
  rw [Reserve.upgraded_eq_self_iff, current_iff_of_ok hconfig]

/-! ### Writing back what was read -/

/-- One step of unpacking. -/
theorem unpacked_bind_eq_ok_iff {α β : Type} {x : Unpacked α} {f : α → Unpacked β} {b : β} :
    (x >>= f).run = some (.ok b) ↔ ∃ a, x.run = some (.ok a) ∧ (f a).run = some (.ok b) := by
  rw [ExceptT.run_bind]
  cases hx : x.run with
  | none => simp
  | some r =>
    cases r with
    | error e => simp
    | ok a => simp

theorem unpackDecimal_lt (bytes : ByteArr 16) : (unpackDecimal bytes).scaledVal < u128Bound := by
  have hlt := leVal_lt bytes.1
  rw [bytes.2] at hlt
  exact hlt

theorem unpackExtraMarketPrice_lt {flag : ByteArr 1} {src : ByteArr 16} {price : Option Decimal}
    (h : (unpackExtraMarketPrice flag src).run = some (.ok price)) :
    (price.getD .zero).scaledVal < u128Bound := by
  by_cases hflag : u8FromLeBytes flag ≤ 1
  · rcases eq_zero_or_one hflag with hzero | hone
    · rw [unpackExtraMarketPrice, hzero] at h
      obtain rfl := Except.ok.inj (Option.some.inj h)
      decide
    · rw [unpackExtraMarketPrice, hone] at h
      obtain rfl := Except.ok.inj (Option.some.inj h)
      exact unpackDecimal_lt src
  · rw [unpackExtraMarketPrice, byByte_of_not_le hflag] at h
    cases Option.some.inj h

theorem RateLimiter.unpacked_lt {src : ByteArr rateLimiterLen} {limiter : RateLimiter}
    (h : (RateLimiter.unpackFromSlice src).run = some (.ok limiter)) :
    limiter.prevQty.scaledVal < u128Bound ∧ limiter.curQty.scaledVal < u128Bound := by
  obtain rfl := Except.ok.inj (Option.some.inj h)
  exact ⟨unpackDecimal_lt _, unpackDecimal_lt _⟩

/-- What unpacks has a known version, and was put together from parts that unpack. -/
theorem Reserve.unpackArray_of_ok {input : ByteArr reserveLen} {reserve : Reserve}
    (h : (unpackArray input).run = some (.ok reserve)) :
    u8FromLeBytes (Field.version.of input) ≤ programVersion ∧
      ∃ stale extraMarketPrice reserveType rateLimiter,
        (unpackExtraMarketPrice (Field.liquidityExtraMarketPriceFlag.of input)
          (Field.liquidityExtraMarketPrice.of input)).run = some (.ok extraMarketPrice) ∧
        (RateLimiter.unpackFromSlice (Field.rateLimiter.of input)).run = some (.ok rateLimiter) ∧
          reserve = ofArray input stale extraMarketPrice reserveType rateLimiter := by
  by_cases hversion : programVersion < u8FromLeBytes (Field.version.of input)
  · simp only [unpackArray, hversion, ↓reduceIte] at h
    cases Option.some.inj h
  · simp only [unpackArray, hversion, ↓reduceIte, unpacked_bind_eq_ok_iff] at h
    obtain ⟨stale, -, extra, hextra, reserveType, -, limiter, hlimiter, hreserve⟩ := h
    exact ⟨UInt8.not_lt.mp hversion, stale, extra, reserveType, limiter, hextra, hlimiter,
      (Except.ok.inj (Option.some.inj hreserve)).symm⟩

theorem Reserve.current_ofArray (input : ByteArr reserveLen) (stale : Bool)
    (extraMarketPrice : Option Decimal) (reserveType : ReserveType) (rateLimiter : RateLimiter) :
    Current (ofArray input stale extraMarketPrice reserveType rateLimiter).config where
  utilization := le_maxOfLe_left _ _
  bonus := le_maxOfLe_left _ _
  threshold := le_maxOfLe_left _ _
  borrowRate := le_maxOfLe_left _ _
  fee := Std.min_le_right
  oracle := by
    dsimp only [ofArray]
    split
    · exact nofun
    · next hne => exact fun h => hne (Option.some.inj h)
  limitOpen := orUnlimited_ne_zero _
  limitClose := orUnlimited_ne_zero _

theorem Reserve.packable_ofArray (input : ByteArr reserveLen) (stale : Bool)
    (reserveType : ReserveType) {extraMarketPrice : Option Decimal} {rateLimiter : RateLimiter}
    (hextra : (extraMarketPrice.getD .zero).scaledVal < u128Bound)
    (hlimiter : rateLimiter.prevQty.scaledVal < u128Bound ∧
      rateLimiter.curQty.scaledVal < u128Bound) :
    (ofArray input stale extraMarketPrice reserveType rateLimiter).Packable where
  borrowed := unpackDecimal_lt _
  cumulative := unpackDecimal_lt _
  fees := unpackDecimal_lt _
  price := unpackDecimal_lt _
  smoothed := unpackDecimal_lt _
  extra := hextra
  prevQty := hlimiter.1
  curQty := hlimiter.2
  attributed := unpackDecimal_lt _

/-- **Writing back what was read.**  A reserve unpacked from an account, of whichever
version, can be packed into it again, and then unpacks to the same reserve. -/
theorem repack_reserve (data : List UInt8) (reserve : Reserve)
    (h : (Reserve.unpackFromSlice data).run = some (.ok reserve)) :
    ∃ packed, reserve.packIntoSlice data = some packed ∧
      (Reserve.unpackFromSlice packed).run = some (.ok reserve) := by
  unfold Reserve.unpackFromSlice at h
  split at h
  · next hlen =>
    obtain ⟨hversion, stale, extra, reserveType, limiter, hextra, hlimiter, rfl⟩ :=
      Reserve.unpackArray_of_ok h
    have hpackable := Reserve.packable_ofArray
      ⟨data.take reserveLen, List.length_take_of_le hlen⟩ stale reserveType
      (unpackExtraMarketPrice_lt hextra) (RateLimiter.unpacked_lt hlimiter)
    obtain ⟨packed, hpacked⟩ := Reserve.exists_pack_iff.mpr ⟨hlen, hpackable⟩
    refine ⟨packed, hpacked, ?_⟩
    rw [Reserve.unpack_packed hpacked hversion,
      Reserve.upgraded_eq_self_iff.mpr (Reserve.current_ofArray _ _ _ _ _)]
  · cases h

theorem plainReserve_packable : (plainReserve 1000 500 1200).Packable :=
  ⟨by decide +kernel, by decide +kernel, by decide +kernel, by decide +kernel, by decide +kernel,
    by decide +kernel, by decide +kernel, by decide +kernel, by decide +kernel⟩

/-- A reserve through an account of sevens, and one read from zeroes written back. -/
theorem unpack_pack_reserve_plain :
    let reserve := plainReserve 1000 500 1200
    ∃ packed, reserve.packIntoSlice (List.replicate 619 7) = some packed ∧
      packed.drop 570 = List.replicate 49 7 ∧
        (Reserve.unpackFromSlice packed).run = some (.ok reserve) := by
  intro reserve
  obtain ⟨hexists, hback⟩ := unpack_pack_reserve reserve (List.replicate 619 7)
  obtain ⟨packed, hpacked⟩ := hexists.mpr ⟨by decide +kernel, plainReserve_packable⟩
  obtain ⟨-, hdrop, hround⟩ := hback packed hpacked
  obtain ⟨back, hunpack, hsame⟩ := hround (by decide +kernel) (by decide)
  have heq : back = reserve := hsame.mpr (by decide +kernel)
  exact ⟨packed, hpacked, hdrop.trans (by rw [List.drop_replicate]), heq ▸ hunpack⟩

theorem repack_reserve_zeroes :
    ∃ reserve packed, reserve.packIntoSlice (List.replicate 619 0) = some packed ∧
      (Reserve.unpackFromSlice packed).run = some (.ok reserve) := by
  obtain ⟨reserve, hreserve, -⟩ := @unpackFromSlice_ok (List.replicate 619 0)
    (by decide +kernel) ⟨by decide +kernel, by decide +kernel, by decide +kernel⟩
    (by decide +kernel)
  obtain ⟨packed, hpacked, hback⟩ := repack_reserve (List.replicate 619 0) reserve hreserve
  exact ⟨reserve, packed, hpacked, hback⟩

/-! ## Lending markets -/

structure LendingMarket where
  version : UInt8
  bumpSeed : UInt8
  owner : Pubkey
  quoteCurrency : Bytes32
  tokenProgramId : Pubkey
  oracleProgramId : Pubkey
  switchboardOracleProgramId : Pubkey
  rateLimiter : RateLimiter
  whitelistedLiquidator : Option Pubkey
  riskAuthority : Pubkey
  deriving DecidableEq, Repr

inductive MarketField where
  | version
  | bumpSeed
  | owner
  | quoteCurrency
  | tokenProgramId
  | oracleProgramId
  | switchboardOracleProgramId
  | rateLimiter
  | whitelistedLiquidator
  | riskAuthority
  | padding
  deriving DecidableEq, Repr

def lendingMarketLen : Nat := 290

def marketLayout : List (MarketField × Nat) :=
  [(.version, 1), (.bumpSeed, 1), (.owner, 32), (.quoteCurrency, 32), (.tokenProgramId, 32),
    (.oracleProgramId, 32), (.switchboardOracleProgramId, 32), (.rateLimiter, rateLimiterLen),
    (.whitelistedLiquidator, 32), (.riskAuthority, 32), (.padding, 8)]

theorem nodup_marketLayout : (marketLayout.map Prod.fst).Nodup := by decide

theorem MarketField.mem_layout (f : MarketField) : f ∈ marketLayout.map Prod.fst := by
  cases f <;> decide

/-- The bytes of one field of a packed market. -/
def MarketField.of (f : MarketField) (input : ByteArr lendingMarketLen) :
    ByteArr (width marketLayout f) :=
  @field MarketField UInt8 _ marketLayout input f

def MarketField.write (part : (f : MarketField) → ByteArr (width marketLayout f)) :
    ByteArr lendingMarketLen :=
  record nodup_marketLayout part

theorem MarketField.of_write (part : (f : MarketField) → ByteArr (width marketLayout f))
    (f : MarketField) : f.of (MarketField.write part) = part f :=
  field_record nodup_marketLayout part f.mem_layout

theorem MarketField.drop_of_padding (array : ByteArr lendingMarketLen) :
    (MarketField.padding.of array).1 = array.1.drop 282 :=
  @field_of_last _ _ marketLayout _ MarketField.padding (by decide) array

namespace LendingMarket

/-- `LendingMarket::new`, with the fields of `InitLendingMarketParams`. -/
def new (bumpSeed : UInt8) (owner : Pubkey) (quoteCurrency : Bytes32)
    (tokenProgramId oracleProgramId switchboardOracleProgramId : Pubkey) : LendingMarket where
  version := programVersion
  bumpSeed := bumpSeed
  owner := owner
  quoteCurrency := quoteCurrency
  tokenProgramId := tokenProgramId
  oracleProgramId := oracleProgramId
  switchboardOracleProgramId := switchboardOracleProgramId
  rateLimiter := .default
  whitelistedLiquidator := none
  riskAuthority := owner

/-- What is written of a market, once its rate limiter is packed. -/
def part (self : LendingMarket) (output : ByteArr lendingMarketLen)
    (rateLimiter : ByteArr rateLimiterLen) : (f : MarketField) → ByteArr (width marketLayout f)
  | .version => u8ToLeBytes self.version
  | .bumpSeed => u8ToLeBytes self.bumpSeed
  | .owner => pubkeyAsRef self.owner
  | .quoteCurrency => pubkeyAsRef self.quoteCurrency
  | .tokenProgramId => pubkeyAsRef self.tokenProgramId
  | .oracleProgramId => pubkeyAsRef self.oracleProgramId
  | .switchboardOracleProgramId => pubkeyAsRef self.switchboardOracleProgramId
  | .rateLimiter => rateLimiter
  | .whitelistedLiquidator => packKey self.whitelistedLiquidator
  | .riskAuthority => pubkeyAsRef self.riskAuthority
  | .padding => MarketField.padding.of output

def packArray (self : LendingMarket) (output : ByteArr lendingMarketLen) :
    Option (ByteArr lendingMarketLen) := do
  let rateLimiter ← self.rateLimiter.packIntoSlice
  return MarketField.write (self.part output rateLimiter)

def packIntoSlice (self : LendingMarket) (output : List UInt8) : Option (List UInt8) :=
  arrayMutRef self.packArray output

def unpackArray (input : ByteArr lendingMarketLen) : Unpacked LendingMarket := do
  let version := u8FromLeBytes (MarketField.version.of input)
  if programVersion < version then throw .invalidAccountData
  let owner := pubkeyNewFromArray (MarketField.owner.of input)
  let rateLimiter ← RateLimiter.unpackFromSlice (MarketField.rateLimiter.of input)
  let liquidator := pubkeyNewFromArray (MarketField.whitelistedLiquidator.of input)
  let riskAuthority := pubkeyNewFromArray (MarketField.riskAuthority.of input)
  return {
    version
    bumpSeed := u8FromLeBytes (MarketField.bumpSeed.of input)
    owner
    quoteCurrency := pubkeyNewFromArray (MarketField.quoteCurrency.of input)
    tokenProgramId := pubkeyNewFromArray (MarketField.tokenProgramId.of input)
    oracleProgramId := pubkeyNewFromArray (MarketField.oracleProgramId.of input)
    switchboardOracleProgramId :=
      pubkeyNewFromArray (MarketField.switchboardOracleProgramId.of input)
    rateLimiter
    whitelistedLiquidator := if liquidator = Pubkey.default then none else some liquidator
    riskAuthority := if riskAuthority = Pubkey.default then owner else riskAuthority }

def unpackFromSlice (input : List UInt8) : Unpacked LendingMarket :=
  arrayRef unpackArray input

/-- A market as unpacking leaves it. -/
def upgraded (self : LendingMarket) : LendingMarket :=
  { self with
    whitelistedLiquidator := self.whitelistedLiquidator.filter (· ≠ Pubkey.default)
    riskAuthority := if self.riskAuthority = Pubkey.default then self.owner else self.riskAuthority }

variable {self : LendingMarket}

theorem unpackArray_packArray {output packed : ByteArr lendingMarketLen}
    (h : self.packArray output = some packed) (hversion : self.version ≤ programVersion) :
    unpackArray packed = pure self.upgraded := by
  simp only [packArray, Option.bind_eq_bind, Option.bind_eq_some_iff, Option.pure_def,
    Option.some.injEq] at h
  obtain ⟨_, hlimiter, rfl⟩ := h
  simp only [unpackArray, MarketField.of_write, part, u8FromLeBytes_toLeBytes,
    if_neg (UInt8.not_lt.mpr hversion), pubkeyNewFromArray_asRef, RateLimiter.unpack_pack hlimiter,
    pure_bind, pubkeyNewFromArray_packKey]
  rfl

theorem exists_pack_iff {output : List UInt8} :
    (∃ packed, self.packIntoSlice output = some packed) ↔ lendingMarketLen ≤ output.length ∧
      self.rateLimiter.prevQty.scaledVal < u128Bound ∧
        self.rateLimiter.curQty.scaledVal < u128Bound := by
  refine exists_arrayMutRef_iff fun array => ?_
  rw [← RateLimiter.exists_pack_iff]
  simp only [packArray, Option.bind_eq_bind, Option.bind_eq_some_iff, Option.pure_def,
    Option.some.injEq]
  exact ⟨fun ⟨_, limiter, hlimiter, _⟩ => ⟨limiter, hlimiter⟩,
    fun ⟨limiter, hlimiter⟩ => ⟨_, limiter, hlimiter, rfl⟩⟩

/-- The padding, and what follows the market, stay as they were. -/
theorem drop_packed {output packed : List UInt8} (h : self.packIntoSlice output = some packed) :
    packed.length = output.length ∧ packed.drop 282 = output.drop 282 := by
  refine drop_arrayMutRef (by decide) (fun old new hnew => ?_) h
  simp only [packArray, Option.bind_eq_bind, Option.bind_eq_some_iff, Option.pure_def,
    Option.some.injEq] at hnew
  obtain ⟨_, -, rfl⟩ := hnew
  rw [← MarketField.drop_of_padding, ← MarketField.drop_of_padding, MarketField.of_write]
  rfl

theorem upgraded_eq_self_iff :
    self.upgraded = self ↔ self.whitelistedLiquidator ≠ some Pubkey.default ∧
      (self.riskAuthority = Pubkey.default → self.owner = Pubkey.default) := by
  rw [← filter_eq_self_iff]
  constructor
  · intro h
    refine ⟨congrArg whitelistedLiquidator h, fun hrisk => ?_⟩
    have howner := congrArg riskAuthority h
    rw [upgraded, if_pos hrisk, hrisk] at howner
    exact howner
  · rintro ⟨hliquidator, hrisk⟩
    have hauthority : (if self.riskAuthority = Pubkey.default then self.owner
        else self.riskAuthority) = self.riskAuthority := by
      split
      · next hdefault => rw [hdefault, hrisk hdefault]
      · rfl
    rw [upgraded, hliquidator, hauthority]

end LendingMarket

/-- **A market through its account.**  What comes back is the market that was packed,
unless its liquidator is the key of zeroes or it has an owner and no risk authority. -/
theorem unpack_pack_market (market : LendingMarket) (output : List UInt8)
    (hversion : market.version ≤ programVersion) :
    ((∃ packed, market.packIntoSlice output = some packed) ↔ lendingMarketLen ≤ output.length ∧
        market.rateLimiter.prevQty.scaledVal < u128Bound ∧
          market.rateLimiter.curQty.scaledVal < u128Bound) ∧
      ∀ packed, market.packIntoSlice output = some packed →
        packed.length = output.length ∧ packed.drop 282 = output.drop 282 ∧
          ∃ back, (LendingMarket.unpackFromSlice packed).run = some (.ok back) ∧
            (back = market ↔ market.whitelistedLiquidator ≠ some Pubkey.default ∧
              (market.riskAuthority = Pubkey.default → market.owner = Pubkey.default)) := by
  refine ⟨LendingMarket.exists_pack_iff, fun packed hpacked => ?_⟩
  obtain ⟨hlength, hdrop⟩ := LendingMarket.drop_packed hpacked
  refine ⟨hlength, hdrop, market.upgraded, ?_, LendingMarket.upgraded_eq_self_iff⟩
  obtain ⟨_, array, harray, rfl⟩ := arrayMutRef_eq_some_iff.mp hpacked
  rw [LendingMarket.unpackFromSlice, arrayRef_append,
    LendingMarket.unpackArray_packArray harray hversion]
  rfl

/-- `LendingMarket::new`, over an account of nines. -/
theorem unpack_pack_market_new :
    let market := LendingMarket.new 254 (Bytes32.fill 1) (Bytes32.fill 2) (Bytes32.fill 3)
      (Bytes32.fill 4) (Bytes32.fill 5)
    ∃ packed, market.packIntoSlice (List.replicate 290 9) = some packed ∧
      packed.drop 282 = List.replicate 8 9 ∧
        (LendingMarket.unpackFromSlice packed).run = some (.ok market) := by
  intro market
  obtain ⟨hexists, hback⟩ := unpack_pack_market market (List.replicate 290 9) (by decide)
  obtain ⟨packed, hpacked⟩ :=
    hexists.mpr ⟨by decide +kernel, by decide +kernel, by decide +kernel⟩
  obtain ⟨-, hdrop, back, hunpack, hsame⟩ := hback packed hpacked
  have heq : back = market := hsame.mpr (by decide +kernel)
  exact ⟨packed, hpacked, hdrop.trans (by rw [List.drop_replicate]), heq ▸ hunpack⟩

end Solend

end Gyrfalcon
