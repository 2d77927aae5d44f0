import Gyrfalcon.SavePacking

/-!
# Packed obligations (`patches/solend-sdk/src/state/obligation.rs`)

A header of fixed fields, and behind it the deposits and the borrows one after the
other, as many as two bytes of the header say.  The entries are written over what
was there, their padding and everything behind them stay as they were.

Nothing is upgraded here: an obligation comes back as it was
(`unpack_pack_obligation`), and what was read is written back byte for byte
(`repack_obligation`).  There is room for one deposit and nine borrows, which is
not quite what the limit of ten reserves allows (`packs_run`).  Six bytes of an
account decide whether it is read, refused or panics (`unpack_obligation_iff`).
-/

namespace Gyrfalcon

open ByteCodec Layout

namespace Solend

/-! ## Reading, then writing -/

@[simp] theorem pubkeyAsRef_newFromArray (src : ByteArr 32) :
    pubkeyAsRef (pubkeyNewFromArray src) = src := rfl

@[simp] theorem u8ToLeBytes_fromLeBytes (src : ByteArr 1) :
    u8ToLeBytes (u8FromLeBytes src) = src := by
  obtain ⟨byte, hbyte⟩ := List.length_eq_one_iff.mp src.2
  refine Subtype.ext ?_
  simp [u8ToLeBytes, u8FromLeBytes, hbyte]

@[simp] theorem u64ToLeBytes_fromLeBytes (src : ByteArr 8) :
    u64ToLeBytes (u64FromLeBytes src) = src := by
  have hlt : leVal src.1 < UInt64.size := by
    have h := leVal_lt src.1
    rw [src.2] at h
    exact lt_of_lt_of_eq h (by decide)
  have hbytes := leBytes_leVal src.1
  rw [src.2] at hbytes
  refine Subtype.ext (Eq.trans ?_ hbytes)
  exact congrArg (leBytes 8) (UInt64.toNat_ofNat_of_lt hlt)

@[simp] theorem packDecimal_unpack (src : ByteArr 16) :
    packDecimal (unpackDecimal src) = some src := by
  have hbytes := leBytes_leVal src.1
  rw [src.2] at hbytes
  exact packDecimal_eq_some_iff.mpr ⟨unpackDecimal_lt src, Subtype.ext hbytes⟩

theorem packBool_of_unpackBool {src : ByteArr 1} {value : Bool}
    (h : (unpackBool src).run = some (.ok value)) : packBool value = src := by
  rw [← u8ToLeBytes_fromLeBytes src]
  unfold unpackBool byByte at h
  split at h
  · next hbyte =>
    obtain rfl := Except.ok.inj (Option.some.inj h)
    rw [hbyte]
    rfl
  · next hbyte =>
    obtain rfl := Except.ok.inj (Option.some.inj h)
    rw [hbyte]
    rfl
  · cases h

theorem packDecimal_of_eq {decimal : Decimal} {src : ByteArr 16} (h : decimal = unpackDecimal src) :
    packDecimal decimal = some src := by
  rw [h, packDecimal_unpack]

theorem unpacked_liftM_eq_ok_iff {α : Type} {x : Option α} {a : α} :
    (liftM x : Unpacked α).run = some (.ok a) ↔ x = some a := by
  cases x with
  | none => exact iff_of_false (nomatch ·) (nomatch ·)
  | some b =>
    rw [Option.some.injEq]
    exact ⟨fun h => Except.ok.inj (Option.some.inj h), fun h => h ▸ rfl⟩

/-! ## Entries -/

def obligationCollateralLen : Nat := 88

def obligationLiquidityLen : Nat := 112

inductive CollateralField where
  | depositReserve
  | depositedAmount
  | marketValue
  | attributedBorrowValue
  | padding
  deriving DecidableEq, Repr

inductive LiquidityField where
  | borrowReserve
  | cumulativeBorrowRateWads
  | borrowedAmountWads
  | marketValue
  | padding
  deriving DecidableEq, Repr

def collateralLayout : List (CollateralField × Nat) :=
  [(.depositReserve, 32), (.depositedAmount, 8), (.marketValue, 16), (.attributedBorrowValue, 16),
    (.padding, 16)]

def liquidityLayout : List (LiquidityField × Nat) :=
  [(.borrowReserve, 32), (.cumulativeBorrowRateWads, 16), (.borrowedAmountWads, 16),
    (.marketValue, 16), (.padding, 32)]

theorem nodup_collateralLayout : (collateralLayout.map Prod.fst).Nodup := by decide

theorem nodup_liquidityLayout : (liquidityLayout.map Prod.fst).Nodup := by decide

theorem CollateralField.mem_layout (f : CollateralField) : f ∈ collateralLayout.map Prod.fst := by
  cases f <;> decide

theorem LiquidityField.mem_layout (f : LiquidityField) : f ∈ liquidityLayout.map Prod.fst := by
  cases f <;> decide

def CollateralField.of (f : CollateralField) (input : ByteArr obligationCollateralLen) :
    ByteArr (width collateralLayout f) :=
  @field CollateralField UInt8 _ collateralLayout input f

def LiquidityField.of (f : LiquidityField) (input : ByteArr obligationLiquidityLen) :
    ByteArr (width liquidityLayout f) :=
  @field LiquidityField UInt8 _ liquidityLayout input f

def CollateralField.write (part : (f : CollateralField) → ByteArr (width collateralLayout f)) :
    ByteArr obligationCollateralLen :=
  record nodup_collateralLayout part

def LiquidityField.write (part : (f : LiquidityField) → ByteArr (width liquidityLayout f)) :
    ByteArr obligationLiquidityLen :=
  record nodup_liquidityLayout part

theorem CollateralField.of_write
    (part : (f : CollateralField) → ByteArr (width collateralLayout f)) (f : CollateralField) :
    f.of (CollateralField.write part) = part f :=
  field_record nodup_collateralLayout part f.mem_layout

theorem LiquidityField.of_write
    (part : (f : LiquidityField) → ByteArr (width liquidityLayout f)) (f : LiquidityField) :
    f.of (LiquidityField.write part) = part f :=
  field_record nodup_liquidityLayout part f.mem_layout

namespace ObligationCollateral

/-- What is written of a deposit, once its decimals are packed. -/
def part (self : ObligationCollateral) (output : ByteArr obligationCollateralLen)
    (marketValue attributedBorrowValue : ByteArr 16) :
    (f : CollateralField) → ByteArr (width collateralLayout f)
  | .depositReserve => pubkeyAsRef self.depositReserve
  | .depositedAmount => u64ToLeBytes self.depositedAmount
  | .marketValue => marketValue
  | .attributedBorrowValue => attributedBorrowValue
  | .padding => CollateralField.padding.of output

/-- One turn of the loop over the deposits. -/
def packArray (self : ObligationCollateral) (output : ByteArr obligationCollateralLen) :
    Option (ByteArr obligationCollateralLen) := do
  let marketValue ← packDecimal self.marketValue
  let attributedBorrowValue ← packDecimal self.attributedBorrowValue
  return CollateralField.write (self.part output marketValue attributedBorrowValue)

def unpackArray (input : ByteArr obligationCollateralLen) : ObligationCollateral where
  depositReserve := pubkeyNewFromArray (CollateralField.depositReserve.of input)
  depositedAmount := u64FromLeBytes (CollateralField.depositedAmount.of input)
  marketValue := unpackDecimal (CollateralField.marketValue.of input)
  attributedBorrowValue := unpackDecimal (CollateralField.attributedBorrowValue.of input)

/-- The decimals fit. -/
structure Packable (collateral : ObligationCollateral) : Prop where
  market : collateral.marketValue.scaledVal < u128Bound
  attributed : collateral.attributedBorrowValue.scaledVal < u128Bound

variable {self : ObligationCollateral}

theorem exists_packArray_iff {output : ByteArr obligationCollateralLen} :
    (∃ packed, self.packArray output = some packed) ↔ self.Packable := by
  simp only [packArray, Option.bind_eq_bind, Option.bind_eq_some_iff, Option.pure_def,
    Option.some.injEq]
  constructor
  · rintro ⟨_, _, hmarket, _, hattributed, -⟩
    exact ⟨exists_packDecimal_iff.mp ⟨_, hmarket⟩, exists_packDecimal_iff.mp ⟨_, hattributed⟩⟩
  · intro h
    obtain ⟨_, hmarket⟩ := exists_packDecimal_iff.mpr h.market
    obtain ⟨_, hattributed⟩ := exists_packDecimal_iff.mpr h.attributed
    exact ⟨_, _, hmarket, _, hattributed, rfl⟩

theorem unpackArray_packArray {output packed : ByteArr obligationCollateralLen}
    (h : self.packArray output = some packed) : unpackArray packed = self := by
  simp only [packArray, Option.bind_eq_bind, Option.bind_eq_some_iff, Option.pure_def,
    Option.some.injEq] at h
  obtain ⟨_, hmarket, _, hattributed, rfl⟩ := h
  simp only [unpackArray, CollateralField.of_write, part, pubkeyNewFromArray_asRef,
    u64FromLeBytes_toLeBytes, unpackDecimal_of_pack hmarket, unpackDecimal_of_pack hattributed]

theorem packArray_unpackArray (input : ByteArr obligationCollateralLen) :
    (unpackArray input).packArray input = some input := by
  have hparts : (unpackArray input).part input (CollateralField.marketValue.of input)
      (CollateralField.attributedBorrowValue.of input) = fun f => f.of input := by
    funext f
    cases f with
    | depositReserve => exact pubkeyAsRef_newFromArray _
    | depositedAmount => exact u64ToLeBytes_fromLeBytes _
    | marketValue => rfl
    | attributedBorrowValue => rfl
    | padding => rfl
  have hwritten := (congrArg CollateralField.write hparts).trans
    (record_field nodup_collateralLayout input)
  simp only [packArray, Option.bind_eq_bind, Option.bind_eq_some_iff, Option.pure_def,
    Option.some.injEq]
  exact ⟨_, packDecimal_unpack _, _, packDecimal_unpack _, hwritten⟩

end ObligationCollateral

namespace ObligationLiquidity

/-- What is written of a borrow, once its decimals are packed. -/
def part (self : ObligationLiquidity) (output : ByteArr obligationLiquidityLen)
    (cumulativeBorrowRateWads borrowedAmountWads marketValue : ByteArr 16) :
    (f : LiquidityField) → ByteArr (width liquidityLayout f)
  | .borrowReserve => pubkeyAsRef self.borrowReserve
  | .cumulativeBorrowRateWads => cumulativeBorrowRateWads
  | .borrowedAmountWads => borrowedAmountWads
  | .marketValue => marketValue
  | .padding => LiquidityField.padding.of output

/-- One turn of the loop over the borrows. -/
def packArray (self : ObligationLiquidity) (output : ByteArr obligationLiquidityLen) :
    Option (ByteArr obligationLiquidityLen) := do
  let cumulativeBorrowRateWads ← packDecimal self.cumulativeBorrowRateWads
  let borrowedAmountWads ← packDecimal self.borrowedAmountWads
  let marketValue ← packDecimal self.marketValue
  return LiquidityField.write
    (self.part output cumulativeBorrowRateWads borrowedAmountWads marketValue)

def unpackArray (input : ByteArr obligationLiquidityLen) : ObligationLiquidity where
  borrowReserve := pubkeyNewFromArray (LiquidityField.borrowReserve.of input)
  cumulativeBorrowRateWads := unpackDecimal (LiquidityField.cumulativeBorrowRateWads.of input)
  borrowedAmountWads := unpackDecimal (LiquidityField.borrowedAmountWads.of input)
  marketValue := unpackDecimal (LiquidityField.marketValue.of input)

/-- The decimals fit. -/
structure Packable (liquidity : ObligationLiquidity) : Prop where
  cumulative : liquidity.cumulativeBorrowRateWads.scaledVal < u128Bound
  borrowed : liquidity.borrowedAmountWads.scaledVal < u128Bound
  market : liquidity.marketValue.scaledVal < u128Bound

variable {self : ObligationLiquidity}

theorem exists_packArray_iff {output : ByteArr obligationLiquidityLen} :
    (∃ packed, self.packArray output = some packed) ↔ self.Packable := by
  simp only [packArray, Option.bind_eq_bind, Option.bind_eq_some_iff, Option.pure_def,
    Option.some.injEq]
  constructor
  · rintro ⟨_, _, hcumulative, _, hborrowed, _, hmarket, -⟩
    exact ⟨exists_packDecimal_iff.mp ⟨_, hcumulative⟩, exists_packDecimal_iff.mp ⟨_, hborrowed⟩,
      exists_packDecimal_iff.mp ⟨_, hmarket⟩⟩
  · intro h
    obtain ⟨_, hcumulative⟩ := exists_packDecimal_iff.mpr h.cumulative
    obtain ⟨_, hborrowed⟩ := exists_packDecimal_iff.mpr h.borrowed
    obtain ⟨_, hmarket⟩ := exists_packDecimal_iff.mpr h.market
    exact ⟨_, _, hcumulative, _, hborrowed, _, hmarket, rfl⟩

theorem unpackArray_packArray {output packed : ByteArr obligationLiquidityLen}
    (h : self.packArray output = some packed) : unpackArray packed = self := by
  simp only [packArray, Option.bind_eq_bind, Option.bind_eq_some_iff, Option.pure_def,
    Option.some.injEq] at h
  obtain ⟨_, hcumulative, _, hborrowed, _, hmarket, rfl⟩ := h
  simp only [unpackArray, LiquidityField.of_write, part, pubkeyNewFromArray_asRef,
    unpackDecimal_of_pack hcumulative, unpackDecimal_of_pack hborrowed,
    unpackDecimal_of_pack hmarket]

theorem packArray_unpackArray (input : ByteArr obligationLiquidityLen) :
    (unpackArray input).packArray input = some input := by
  have hparts : (unpackArray input).part input (LiquidityField.cumulativeBorrowRateWads.of input)
      (LiquidityField.borrowedAmountWads.of input) (LiquidityField.marketValue.of input) =
        fun f => f.of input := by
    funext f
    cases f with
    | borrowReserve => exact pubkeyAsRef_newFromArray _
    | cumulativeBorrowRateWads => rfl
    | borrowedAmountWads => rfl
    | marketValue => rfl
    | padding => rfl
  have hwritten := (congrArg LiquidityField.write hparts).trans
    (record_field nodup_liquidityLayout input)
  simp only [packArray, Option.bind_eq_bind, Option.bind_eq_some_iff, Option.pure_def,
    Option.some.injEq]
  exact ⟨_, packDecimal_unpack _, _, packDecimal_unpack _, _, packDecimal_unpack _, hwritten⟩

end ObligationLiquidity

/-! ## Obligations -/

def obligationLen : Nat := 1300

/-- `data_flat`, one deposit and nine borrows. -/
def dataFlatLen : Nat :=
  obligationCollateralLen + obligationLiquidityLen * (maxObligationReserves - 1)

inductive ObligationField where
  | version
  | lastUpdateSlot
  | lastUpdateStale
  | lendingMarket
  | owner
  | depositedValue
  | borrowedValue
  | allowedBorrowValue
  | unhealthyBorrowValue
  | borrowedValueUpperBound
  | borrowingIsolatedAsset
  | superUnhealthyBorrowValue
  | unweightedBorrowedValue
  | closeable
  | padding
  | depositsLen
  | borrowsLen
  | dataFlat
  deriving DecidableEq, Repr

def obligationLayout : List (ObligationField × Nat) :=
  [(.version, 1), (.lastUpdateSlot, 8), (.lastUpdateStale, 1), (.lendingMarket, 32), (.owner, 32),
    (.depositedValue, 16), (.borrowedValue, 16), (.allowedBorrowValue, 16),
    (.unhealthyBorrowValue, 16), (.borrowedValueUpperBound, 16), (.borrowingIsolatedAsset, 1),
    (.superUnhealthyBorrowValue, 16), (.unweightedBorrowedValue, 16), (.closeable, 1),
    (.padding, 14), (.depositsLen, 1), (.borrowsLen, 1), (.dataFlat, dataFlatLen)]

theorem nodup_obligationLayout : (obligationLayout.map Prod.fst).Nodup := by decide +kernel

theorem ObligationField.mem_layout (f : ObligationField) : f ∈ obligationLayout.map Prod.fst := by
  cases f <;> decide

def ObligationField.of (f : ObligationField) (input : ByteArr obligationLen) :
    ByteArr (width obligationLayout f) :=
  @field ObligationField UInt8 _ obligationLayout input f

def ObligationField.write (part : (f : ObligationField) → ByteArr (width obligationLayout f)) :
    ByteArr obligationLen :=
  record nodup_obligationLayout part

theorem ObligationField.of_write
    (part : (f : ObligationField) → ByteArr (width obligationLayout f)) (f : ObligationField) :
    f.of (ObligationField.write part) = part f :=
  field_record nodup_obligationLayout part f.mem_layout

/-- `u8::try_from(len).unwrap()`. -/
def u8TryFrom (len : Nat) : Option UInt8 := if len < 256 then some (UInt8.ofNat len) else none

namespace Obligation

/-- The loops over the deposits and the borrows, on `data_flat`. -/
def packEntries (self : Obligation) (data : List UInt8) : Option (List UInt8) := do
  let (deposits, rest) ← write ObligationCollateral.packArray self.deposits data
  let (borrows, rest) ← write ObligationLiquidity.packArray self.borrows rest
  return deposits ++ (borrows ++ rest)

theorem packEntries_eq_some_iff {self : Obligation} {data packed : List UInt8} :
    self.packEntries data = some packed ↔ ∃ deposits rest borrows rest',
      write ObligationCollateral.packArray self.deposits data = some (deposits, rest) ∧
        write ObligationLiquidity.packArray self.borrows rest = some (borrows, rest') ∧
          deposits ++ (borrows ++ rest') = packed := by
  simp only [packEntries, Option.bind_eq_bind, Option.bind_eq_some_iff, Prod.exists,
    Option.pure_def, Option.some.injEq]
  constructor
  · rintro ⟨deposits, rest, hdeposits, borrows, rest', hborrows, rfl⟩
    exact ⟨deposits, rest, borrows, rest', hdeposits, hborrows, rfl⟩
  · rintro ⟨deposits, rest, borrows, rest', hdeposits, hborrows, rfl⟩
    exact ⟨deposits, rest, hdeposits, borrows, rest', hborrows, rfl⟩

theorem length_packEntries {self : Obligation} {data packed : List UInt8}
    (h : self.packEntries data = some packed) : packed.length = data.length := by
  obtain ⟨deposits, rest, borrows, rest', hdeposits, hborrows, rfl⟩ := packEntries_eq_some_iff.mp h
  have hfirst := length_write hdeposits
  have hsecond := length_write hborrows
  rw [List.length_append, List.length_append]
  omega

def packDataFlat (self : Obligation) (data : ByteArr dataFlatLen) : Option (ByteArr dataFlatLen) :=
  (self.packEntries data.1).pmap (fun packed hlen => ⟨packed, hlen⟩)
    fun _ h => (length_packEntries h).trans data.2

/-- What is written of an obligation, once everything is packed that can fail. -/
def part (self : Obligation) (output : ByteArr obligationLen)
    (depositedValue borrowedValue borrowedValueUpperBound allowedBorrowValue unhealthyBorrowValue
      superUnhealthyBorrowValue unweightedBorrowedValue : ByteArr 16)
    (depositsLen borrowsLen : UInt8) (dataFlat : ByteArr dataFlatLen) :
    (f : ObligationField) → ByteArr (width obligationLayout f)
  | .version => u8ToLeBytes self.version
  | .lastUpdateSlot => u64ToLeBytes self.lastUpdate.slot
  | .lastUpdateStale => packBool self.lastUpdate.stale
  | .lendingMarket => pubkeyAsRef self.lendingMarket
  | .owner => pubkeyAsRef self.owner
  | .depositedValue => depositedValue
  | .borrowedValue => borrowedValue
  | .allowedBorrowValue => allowedBorrowValue
  | .unhealthyBorrowValue => unhealthyBorrowValue
  | .borrowedValueUpperBound => borrowedValueUpperBound
  | .borrowingIsolatedAsset => packBool self.borrowingIsolatedAsset
  | .superUnhealthyBorrowValue => superUnhealthyBorrowValue
  | .unweightedBorrowedValue => unweightedBorrowedValue
  | .closeable => packBool self.closeable
  | .padding => ObligationField.padding.of output
  | .depositsLen => u8ToLeBytes depositsLen
  | .borrowsLen => u8ToLeBytes borrowsLen
  | .dataFlat => dataFlat

def packArray (self : Obligation) (output : ByteArr obligationLen) :
    Option (ByteArr obligationLen) := do
  let depositedValue ← packDecimal self.depositedValue
  let borrowedValue ← packDecimal self.borrowedValue
  let borrowedValueUpperBound ← packDecimal self.borrowedValueUpperBound
  let allowedBorrowValue ← packDecimal self.allowedBorrowValue
  let unhealthyBorrowValue ← packDecimal self.unhealthyBorrowValue
  let superUnhealthyBorrowValue ← packDecimal self.superUnhealthyBorrowValue
  let unweightedBorrowedValue ← packDecimal self.unweightedBorrowedValue
  let depositsLen ← u8TryFrom self.deposits.length
  let borrowsLen ← u8TryFrom self.borrows.length
  let dataFlat ← self.packDataFlat (ObligationField.dataFlat.of output)
  return ObligationField.write (self.part output depositedValue borrowedValue
    borrowedValueUpperBound allowedBorrowValue unhealthyBorrowValue superUnhealthyBorrowValue
    unweightedBorrowedValue depositsLen borrowsLen dataFlat)

def packIntoSlice (self : Obligation) (dst : List UInt8) : Option (List UInt8) :=
  arrayMutRef self.packArray dst

/-- The two loops of unpacking, which run before the flags are looked at. -/
def unpackEntries (depositsLen borrowsLen : UInt8) (data : List UInt8) :
    Option (List ObligationCollateral × List ObligationLiquidity) := do
  let (deposits, rest) ← cut obligationCollateralLen depositsLen.toNat data
  let (borrows, _) ← cut obligationLiquidityLen borrowsLen.toNat rest
  return (deposits.map ObligationCollateral.unpackArray, borrows.map ObligationLiquidity.unpackArray)

/-- An obligation of an account, but for its entries and flags. -/
def ofArray (input : ByteArr obligationLen) (deposits : List ObligationCollateral)
    (borrows : List ObligationLiquidity) (stale borrowingIsolatedAsset closeable : Bool) :
    Obligation where
  version := u8FromLeBytes (ObligationField.version.of input)
  lastUpdate := ⟨u64FromLeBytes (ObligationField.lastUpdateSlot.of input), stale⟩
  lendingMarket := pubkeyNewFromArray (ObligationField.lendingMarket.of input)
  owner := pubkeyNewFromArray (ObligationField.owner.of input)
  deposits := deposits
  borrows := borrows
  depositedValue := unpackDecimal (ObligationField.depositedValue.of input)
  borrowedValue := unpackDecimal (ObligationField.borrowedValue.of input)
  unweightedBorrowedValue := unpackDecimal (ObligationField.unweightedBorrowedValue.of input)
  borrowedValueUpperBound := unpackDecimal (ObligationField.borrowedValueUpperBound.of input)
  allowedBorrowValue := unpackDecimal (ObligationField.allowedBorrowValue.of input)
  unhealthyBorrowValue := unpackDecimal (ObligationField.unhealthyBorrowValue.of input)
  superUnhealthyBorrowValue := unpackDecimal (ObligationField.superUnhealthyBorrowValue.of input)
  borrowingIsolatedAsset := borrowingIsolatedAsset
  closeable := closeable

def unpackArray (input : ByteArr obligationLen) : Unpacked Obligation := do
  if programVersion < u8FromLeBytes (ObligationField.version.of input) then
    throw .invalidAccountData
  let (deposits, borrows) ← (liftM (unpackEntries
    (u8FromLeBytes (ObligationField.depositsLen.of input))
    (u8FromLeBytes (ObligationField.borrowsLen.of input)) (ObligationField.dataFlat.of input).1) :
      Unpacked _)
  let stale ← unpackBool (ObligationField.lastUpdateStale.of input)
  let borrowingIsolatedAsset ← unpackBool (ObligationField.borrowingIsolatedAsset.of input)
  let closeable ← unpackBool (ObligationField.closeable.of input)
  return ofArray input deposits borrows stale borrowingIsolatedAsset closeable

def unpackFromSlice (src : List UInt8) : Unpacked Obligation := arrayRef unpackArray src

/-- The decimals fit. -/
structure Packable (obligation : Obligation) : Prop where
  deposited : obligation.depositedValue.scaledVal < u128Bound
  borrowed : obligation.borrowedValue.scaledVal < u128Bound
  upperBound : obligation.borrowedValueUpperBound.scaledVal < u128Bound
  allowed : obligation.allowedBorrowValue.scaledVal < u128Bound
  unhealthy : obligation.unhealthyBorrowValue.scaledVal < u128Bound
  superUnhealthy : obligation.superUnhealthyBorrowValue.scaledVal < u128Bound
  unweighted : obligation.unweightedBorrowedValue.scaledVal < u128Bound
  deposits : ∀ collateral ∈ obligation.deposits, collateral.Packable
  borrows : ∀ liquidity ∈ obligation.borrows, liquidity.Packable

/-- The bytes of the entries. -/
def entriesLen (self : Obligation) : Nat :=
  obligationCollateralLen * self.deposits.length + obligationLiquidityLen * self.borrows.length

variable {self : Obligation}

theorem exists_packEntries_iff {data : List UInt8} :
    (∃ packed, self.packEntries data = some packed) ↔ self.entriesLen ≤ data.length ∧
      (∀ collateral ∈ self.deposits, collateral.Packable) ∧
        ∀ liquidity ∈ self.borrows, liquidity.Packable := by
  have hfirst : (∃ written rest, write ObligationCollateral.packArray self.deposits data =
      some (written, rest)) ↔ _ :=
    exists_write_iff fun _ _ => ObligationCollateral.exists_packArray_iff
  have hsecond : ∀ data, (∃ written rest, write ObligationLiquidity.packArray self.borrows data =
      some (written, rest)) ↔ _ := fun data =>
    exists_write_iff fun _ _ => ObligationLiquidity.exists_packArray_iff
  simp only [packEntries_eq_some_iff, entriesLen]
  constructor
  · rintro ⟨_, deposits, rest, borrows, rest', hdeposits, hborrows, -⟩
    obtain ⟨-, hcollateral⟩ := hfirst.mp ⟨_, _, hdeposits⟩
    obtain ⟨hroom, hliquidity⟩ := (hsecond rest).mp ⟨_, _, hborrows⟩
    obtain ⟨-, hlength, -⟩ := cut_write ObligationCollateral.unpackArray_packArray hdeposits []
    have hwritten := length_write hdeposits
    exact ⟨by omega, hcollateral, hliquidity⟩
  · rintro ⟨hroom, hcollateral, hliquidity⟩
    obtain ⟨deposits, rest, hdeposits⟩ := hfirst.mpr ⟨by omega, hcollateral⟩
    obtain ⟨-, hlength, -⟩ := cut_write ObligationCollateral.unpackArray_packArray hdeposits []
    have hwritten := length_write hdeposits
    obtain ⟨borrows, rest', hborrows⟩ := (hsecond rest).mpr ⟨by omega, hliquidity⟩
    exact ⟨_, deposits, rest, borrows, rest', hdeposits, hborrows, rfl⟩

/-- The entries come back, and what follows them does not matter. -/
theorem unpackEntries_packEntries {depositsLen borrowsLen : UInt8} {data packed : List UInt8}
    (h : self.packEntries data = some packed) (hdeposits : depositsLen.toNat = self.deposits.length)
    (hborrows : borrowsLen.toNat = self.borrows.length) :
    unpackEntries depositsLen borrowsLen packed = some (self.deposits, self.borrows) := by
  obtain ⟨deposits, rest, borrows, rest', hfirst, hsecond, rfl⟩ := packEntries_eq_some_iff.mp h
  obtain ⟨⟨blocks, hcut, hget⟩, -⟩ :=
    cut_write ObligationCollateral.unpackArray_packArray hfirst (borrows ++ rest')
  obtain ⟨⟨blocks', hcut', hget'⟩, -⟩ :=
    cut_write ObligationLiquidity.unpackArray_packArray hsecond rest'
  rw [← hdeposits] at hcut
  rw [← hborrows] at hcut'
  rw [unpackEntries, show cut obligationCollateralLen _ _ = _ from hcut]
  simp only [Option.bind_eq_bind, Option.bind_some]
  rw [show cut obligationLiquidityLen _ _ = _ from hcut']
  simp only [Option.bind_some, hget, hget', Option.pure_def]

/-- And they are written where they were read. -/
theorem packEntries_of_unpack {depositsLen borrowsLen : UInt8} {data : List UInt8}
    (h : unpackEntries depositsLen borrowsLen data = some (self.deposits, self.borrows)) :
    self.deposits.length = depositsLen.toNat ∧ self.borrows.length = borrowsLen.toNat ∧
      self.packEntries data = some data := by
  simp only [unpackEntries, Option.bind_eq_bind, Option.bind_eq_some_iff, Prod.exists,
    Option.pure_def, Option.some.injEq, Prod.mk.injEq] at h
  obtain ⟨blocks, rest, hcut, blocks', rest', hcut', hdeposits, hborrows⟩ := h
  obtain ⟨written, hwrite, happend⟩ :=
    write_cut ObligationCollateral.packArray_unpackArray hcut
  obtain ⟨written', hwrite', happend'⟩ :=
    write_cut ObligationLiquidity.packArray_unpackArray hcut'
  refine ⟨?_, ?_, packEntries_eq_some_iff.mpr ⟨written, rest, written', rest', ?_, ?_, ?_⟩⟩
  · rw [← hdeposits, List.length_map, (length_cut hcut).1]
  · rw [← hborrows, List.length_map, (length_cut hcut').1]
  · rw [← hdeposits]
    exact hwrite
  · rw [← hborrows]
    exact hwrite'
  · rw [happend', happend]

/-- Unpacking the entries panics where they do not fit. -/
theorem exists_unpackEntries_iff {depositsLen borrowsLen : UInt8} {data : List UInt8} :
    (∃ deposits borrows, unpackEntries depositsLen borrowsLen data = some (deposits, borrows)) ↔
      obligationCollateralLen * depositsLen.toNat + obligationLiquidityLen * borrowsLen.toNat ≤
        data.length := by
  simp only [unpackEntries, Option.bind_eq_bind, Option.bind_eq_some_iff, Prod.exists,
    Option.pure_def, Option.some.injEq, Prod.mk.injEq]
  constructor
  · rintro ⟨_, _, blocks, rest, hcut, blocks', rest', hcut', -, -⟩
    have hrest := (length_cut hcut).2
    have hrest' := (length_cut hcut').2
    omega
  · intro hroom
    obtain ⟨blocks, rest, hcut⟩ := exists_cut_iff.mpr
      (show obligationCollateralLen * depositsLen.toNat ≤ data.length by omega)
    have hrest := (length_cut hcut).2
    obtain ⟨blocks', rest', hcut'⟩ := exists_cut_iff.mpr
      (show obligationLiquidityLen * borrowsLen.toNat ≤ rest.length by omega)
    exact ⟨_, _, blocks, rest, hcut, blocks', rest', hcut', rfl, rfl⟩

theorem packDataFlat_eq_some_iff {data packed : ByteArr dataFlatLen} :
    self.packDataFlat data = some packed ↔ self.packEntries data.1 = some packed.1 := by
  rw [packDataFlat, Option.pmap_eq_some_iff]
  constructor
  · rintro ⟨_, _, hpacked, rfl⟩
    exact hpacked
  · intro h
    exact ⟨packed.1, packed.2, h, rfl⟩

theorem u8TryFrom_eq_some_iff {len : Nat} {value : UInt8} :
    u8TryFrom len = some value ↔ value.toNat = len := by
  unfold u8TryFrom
  by_cases h : len < 256
  · rw [if_pos h, Option.some.injEq, ← UInt8.toNat_inj, UInt8.toNat_ofNat', Nat.mod_eq_of_lt h]
    exact eq_comm
  · have hlt := value.toNat_lt
    rw [if_neg h]
    exact iff_of_false (nomatch ·) (by omega)

theorem exists_packArray_iff {output : ByteArr obligationLen} :
    (∃ packed, self.packArray output = some packed) ↔
      self.Packable ∧ self.entriesLen ≤ dataFlatLen := by
  have hentries := @exists_packEntries_iff self (ObligationField.dataFlat.of output).1
  rw [(ObligationField.dataFlat.of output).2] at hentries
  simp only [packArray, Option.bind_eq_bind, Option.bind_eq_some_iff, Option.pure_def,
    Option.some.injEq]
  constructor
  · rintro ⟨_, _, hdeposited, _, hborrowed, _, hupper, _, hallowed, _, hunhealthy, _, hsuper, _,
      hunweighted, _, -, _, -, flat, hflat, -⟩
    obtain ⟨hroom, hdeposits, hborrows⟩ :=
      hentries.mp ⟨flat.1, packDataFlat_eq_some_iff.mp hflat⟩
    exact ⟨⟨exists_packDecimal_iff.mp ⟨_, hdeposited⟩, exists_packDecimal_iff.mp ⟨_, hborrowed⟩,
      exists_packDecimal_iff.mp ⟨_, hupper⟩, exists_packDecimal_iff.mp ⟨_, hallowed⟩,
      exists_packDecimal_iff.mp ⟨_, hunhealthy⟩, exists_packDecimal_iff.mp ⟨_, hsuper⟩,
      exists_packDecimal_iff.mp ⟨_, hunweighted⟩, hdeposits, hborrows⟩, hroom⟩
  · rintro ⟨h, hroom⟩
    obtain ⟨_, hdeposited⟩ := exists_packDecimal_iff.mpr h.deposited
    obtain ⟨_, hborrowed⟩ := exists_packDecimal_iff.mpr h.borrowed
    obtain ⟨_, hupper⟩ := exists_packDecimal_iff.mpr h.upperBound
    obtain ⟨_, hallowed⟩ := exists_packDecimal_iff.mpr h.allowed
    obtain ⟨_, hunhealthy⟩ := exists_packDecimal_iff.mpr h.unhealthy
    obtain ⟨_, hsuper⟩ := exists_packDecimal_iff.mpr h.superUnhealthy
    obtain ⟨_, hunweighted⟩ := exists_packDecimal_iff.mpr h.unweighted
    obtain ⟨flat, hflat⟩ := hentries.mpr ⟨hroom, h.deposits, h.borrows⟩
    have hflatLen := (length_packEntries hflat).trans (ObligationField.dataFlat.of output).2
    have hcounts : self.deposits.length < 256 ∧ self.borrows.length < 256 := by
      have hbytes : dataFlatLen = 1096 := rfl
      unfold entriesLen obligationCollateralLen obligationLiquidityLen at hroom
      omega
    have hdeposits : u8TryFrom self.deposits.length = some _ := if_pos hcounts.1
    have hborrows : u8TryFrom self.borrows.length = some _ := if_pos hcounts.2
    exact ⟨_, _, hdeposited, _, hborrowed, _, hupper, _, hallowed, _, hunhealthy, _, hsuper, _,
      hunweighted, _, hdeposits, _, hborrows, ⟨flat, hflatLen⟩,
      packDataFlat_eq_some_iff.mpr hflat, rfl⟩

theorem unpackArray_packArray {output packed : ByteArr obligationLen}
    (h : self.packArray output = some packed) (hversion : self.version ≤ programVersion) :
    unpackArray packed = pure self := by
  simp only [packArray, Option.bind_eq_bind, Option.bind_eq_some_iff, Option.pure_def,
    Option.some.injEq] at h
  obtain ⟨_, hdeposited, _, hborrowed, _, hupper, _, hallowed, _, hunhealthy, _, hsuper, _,
    hunweighted, _, hdeposits, _, hborrows, flat, hflat, rfl⟩ := h
  have hentries := unpackEntries_packEntries (packDataFlat_eq_some_iff.mp hflat)
    (u8TryFrom_eq_some_iff.mp hdeposits) (u8TryFrom_eq_some_iff.mp hborrows)
  simp only [unpackArray, ofArray, ObligationField.of_write, part, u8FromLeBytes_toLeBytes,
    if_neg (UInt8.not_lt.mpr hversion), hentries, unpackBool_packBool, pure_bind,
    u64FromLeBytes_toLeBytes, pubkeyNewFromArray_asRef, unpackDecimal_of_pack hdeposited,
    unpackDecimal_of_pack hborrowed, unpackDecimal_of_pack hupper, unpackDecimal_of_pack hallowed,
    unpackDecimal_of_pack hunhealthy, unpackDecimal_of_pack hsuper,
    unpackDecimal_of_pack hunweighted]
  rfl

theorem unpackArray_of_ok {input : ByteArr obligationLen}
    (h : (unpackArray input).run = some (.ok self)) :
    unpackEntries (u8FromLeBytes (ObligationField.depositsLen.of input))
        (u8FromLeBytes (ObligationField.borrowsLen.of input)) (ObligationField.dataFlat.of input).1 =
        some (self.deposits, self.borrows) ∧
      packBool self.lastUpdate.stale = ObligationField.lastUpdateStale.of input ∧
      packBool self.borrowingIsolatedAsset = ObligationField.borrowingIsolatedAsset.of input ∧
      packBool self.closeable = ObligationField.closeable.of input ∧
        self = ofArray input self.deposits self.borrows self.lastUpdate.stale
          self.borrowingIsolatedAsset self.closeable := by
  by_cases hversion : programVersion < u8FromLeBytes (ObligationField.version.of input)
  · simp only [unpackArray, hversion, ↓reduceIte] at h
    cases Option.some.inj h
  · simp only [unpackArray, hversion, ↓reduceIte, unpacked_bind_eq_ok_iff] at h
    obtain ⟨⟨deposits, borrows⟩, hentries, stale, hstale, isolated, hisolated, closeable, hcloseable,
      hself⟩ := h
    obtain rfl := Except.ok.inj (Option.some.inj hself)
    refine ⟨?_, packBool_of_unpackBool hstale, packBool_of_unpackBool hisolated,
      packBool_of_unpackBool hcloseable, rfl⟩
    exact unpacked_liftM_eq_ok_iff.mp hentries

/-- What was read is written back byte for byte. -/
theorem packArray_of_unpack {input : ByteArr obligationLen}
    (h : (unpackArray input).run = some (.ok self)) : self.packArray input = some input := by
  obtain ⟨hentries, hstale, hisolated, hcloseable, hself⟩ := unpackArray_of_ok h
  obtain ⟨hdeposits, hborrows, hflat⟩ := packEntries_of_unpack hentries
  have hparts : self.part input (ObligationField.depositedValue.of input)
      (ObligationField.borrowedValue.of input) (ObligationField.borrowedValueUpperBound.of input)
      (ObligationField.allowedBorrowValue.of input) (ObligationField.unhealthyBorrowValue.of input)
      (ObligationField.superUnhealthyBorrowValue.of input)
      (ObligationField.unweightedBorrowedValue.of input)
      (u8FromLeBytes (ObligationField.depositsLen.of input))
      (u8FromLeBytes (ObligationField.borrowsLen.of input)) (ObligationField.dataFlat.of input) =
        fun f => f.of input := by
    funext f
    cases f with
    | version => exact hself ▸ u8ToLeBytes_fromLeBytes _
    | lastUpdateSlot => exact hself ▸ u64ToLeBytes_fromLeBytes _
    | lastUpdateStale => exact hstale
    | lendingMarket => exact hself ▸ rfl
    | owner => exact hself ▸ rfl
    | borrowingIsolatedAsset => exact hisolated
    | closeable => exact hcloseable
    | depositsLen => exact u8ToLeBytes_fromLeBytes _
    | borrowsLen => exact u8ToLeBytes_fromLeBytes _
    | _ => rfl
  have hwritten := (congrArg ObligationField.write hparts).trans
    (record_field nodup_obligationLayout input)
  simp only [packArray, Option.bind_eq_bind, Option.bind_eq_some_iff, Option.pure_def,
    Option.some.injEq]
  exact ⟨_, packDecimal_of_eq (congrArg depositedValue hself),
    _, packDecimal_of_eq (congrArg borrowedValue hself),
    _, packDecimal_of_eq (congrArg borrowedValueUpperBound hself),
    _, packDecimal_of_eq (congrArg allowedBorrowValue hself),
    _, packDecimal_of_eq (congrArg unhealthyBorrowValue hself),
    _, packDecimal_of_eq (congrArg superUnhealthyBorrowValue hself),
    _, packDecimal_of_eq (congrArg unweightedBorrowedValue hself),
    _, u8TryFrom_eq_some_iff.mpr hdeposits.symm, _, u8TryFrom_eq_some_iff.mpr hborrows.symm,
    _, packDataFlat_eq_some_iff.mpr hflat, hwritten⟩

/-- One deposit and nine borrows, and any trade of a borrow for a deposit. -/
theorem entriesLen_le_iff (h : self.WellFormed) :
    self.entriesLen ≤ dataFlatLen ↔ self.borrows.length ≤ maxObligationReserves - 1 := by
  have hlimit := h.limit
  unfold entriesLen dataFlatLen obligationCollateralLen obligationLiquidityLen
  unfold maxObligationReserves at hlimit ⊢
  omega

theorem WellFormed.step (h : self.WellFormed) (c : Call) : (self.step c).1.WellFormed := by
  unfold Obligation.step
  split
  · next after hcall => exact h.call hcall
  · exact h

theorem exists_pack_iff {dst : List UInt8} :
    (∃ packed, self.packIntoSlice dst = some packed) ↔ obligationLen ≤ dst.length ∧
      self.Packable ∧ self.entriesLen ≤ dataFlatLen :=
  exists_arrayMutRef_iff fun _ => exists_packArray_iff

theorem unpack_packed {dst packed : List UInt8} (h : self.packIntoSlice dst = some packed)
    (hversion : self.version ≤ programVersion) :
    (unpackFromSlice packed).run = some (.ok self) := by
  obtain ⟨_, array, harray, rfl⟩ := arrayMutRef_eq_some_iff.mp h
  rw [unpackFromSlice, arrayRef_append, unpackArray_packArray harray hversion]
  rfl

end Obligation

/-- **An obligation through its account.**  Packing goes through exactly when the account is
long enough, the decimals fit and there is room for the entries; it changes neither the
length nor what follows the obligation, and the obligation comes back as it was. -/
theorem unpack_pack_obligation (obligation : Obligation) (dst : List UInt8)
    (hversion : obligation.version ≤ programVersion) :
    ((∃ packed, obligation.packIntoSlice dst = some packed) ↔ obligationLen ≤ dst.length ∧
        obligation.Packable ∧ obligation.entriesLen ≤ dataFlatLen) ∧
      ∀ packed, obligation.packIntoSlice dst = some packed →
        packed.length = dst.length ∧ packed.drop obligationLen = dst.drop obligationLen ∧
          (Obligation.unpackFromSlice packed).run = some (.ok obligation) := by
  refine ⟨Obligation.exists_pack_iff, fun packed hpacked => ?_⟩
  have hblock : ∀ old new, obligation.packArray old = some new →
      new.1.drop obligationLen = old.1.drop obligationLen := by
    intro old new _
    rw [List.drop_of_length_le (Nat.le_of_eq new.2), List.drop_of_length_le (Nat.le_of_eq old.2)]
  obtain ⟨hlength, hdrop⟩ := drop_arrayMutRef (Nat.le_refl _) hblock hpacked
  exact ⟨hlength, hdrop, Obligation.unpack_packed hpacked hversion⟩

/-- Two deposits and a borrow. -/
def plainObligation : Obligation :=
  { Obligation.new ⟨5, Bytes32.fill 1, Bytes32.fill 2,
      [⟨Bytes32.fill 3, 700, .ofNat 9, .zero⟩, ⟨Bytes32.fill 4, 20, .ofNat 1, .ofNat 1⟩],
      [⟨Bytes32.fill 5, .one, .ofNat 30, .ofNat 6⟩]⟩ with closeable := true }

theorem plainObligation_packs :
    ∃ packed, plainObligation.packIntoSlice (List.replicate 1302 9) = some packed :=
  Obligation.exists_pack_iff.mpr ⟨by decide +kernel,
    ⟨by decide +kernel, by decide +kernel, by decide +kernel, by decide +kernel, by decide +kernel,
      by decide +kernel, by decide +kernel,
      fun _ h => by
        rcases List.mem_pair.mp h with rfl | rfl
        · exact ⟨by decide +kernel, by decide +kernel⟩
        · exact ⟨by decide +kernel, by decide +kernel⟩,
      fun _ h => by
        obtain rfl := List.mem_singleton.mp h
        exact ⟨by decide +kernel, by decide +kernel, by decide +kernel⟩⟩, by decide⟩

theorem unpack_pack_obligation_plain :
    ∃ packed, plainObligation.packIntoSlice (List.replicate 1302 9) = some packed ∧
      packed.drop 1300 = [9, 9] ∧
        (Obligation.unpackFromSlice packed).run = some (.ok plainObligation) := by
  obtain ⟨packed, hpacked⟩ := plainObligation_packs
  obtain ⟨-, hback⟩ := unpack_pack_obligation plainObligation (List.replicate 1302 9) (by decide)
  obtain ⟨-, hdrop, hunpack⟩ := hback packed hpacked
  exact ⟨packed, hpacked, hdrop.trans (by decide +kernel), hunpack⟩

/-- **Reading changes nothing.**  An obligation that was unpacked from an account packs into
it again, and leaves every byte as it was, unused entries and padding included. -/
theorem repack_obligation (data : List UInt8) (obligation : Obligation)
    (h : (Obligation.unpackFromSlice data).run = some (.ok obligation)) :
    obligation.packIntoSlice data = some data := by
  unfold Obligation.unpackFromSlice arrayRef at h
  split at h
  · next hlen =>
    exact arrayMutRef_eq_some_iff.mpr
      ⟨hlen, _, Obligation.packArray_of_unpack h, List.take_append_drop _ _⟩
  · cases h

theorem repack_obligation_plain :
    ∃ data, (Obligation.unpackFromSlice data).run = some (.ok plainObligation) ∧
      plainObligation.packIntoSlice data = some data := by
  obtain ⟨data, hdata⟩ := plainObligation_packs
  have hunpack := Obligation.unpack_packed hdata (by decide)
  exact ⟨data, hunpack, repack_obligation data plainObligation hunpack⟩

/-- **Room after every run.**  Whatever the calls on a well-formed obligation, failed ones
included, the result fits into an account exactly when at most nine of its ten reserves
are borrowed from. -/
theorem packs_run (obligation : Obligation) (calls : List Obligation.Call) (dst : List UInt8)
    (h : obligation.WellFormed) :
    let after := Machine.final Obligation.step obligation calls
    (∃ packed, after.packIntoSlice dst = some packed) ↔ obligationLen ≤ dst.length ∧
      after.Packable ∧ after.borrows.length ≤ maxObligationReserves - 1 := by
  intro after
  have hstep : ∀ (self : Obligation) (c : Obligation.Call), self.WellFormed →
      (self.step c).1.WellFormed := fun _ c hself => hself.step c
  have hafter : after.WellFormed := Machine.final_invariant hstep h calls
  rw [← Obligation.entriesLen_le_iff hafter]
  exact Obligation.exists_pack_iff

/-- Ten reserves borrowed from, and no deposit. -/
def tenBorrows : List Obligation.Call :=
  (List.range 10).map fun i => .findOrAddLiquidityToBorrows (Bytes32.fill (UInt8.ofNat i)) .one

theorem packs_run_ten :
    let obligation := Obligation.new ⟨5, Pubkey.default, Pubkey.default, [], []⟩
    let after := Machine.final Obligation.step obligation tenBorrows
    after.borrows.length = 10 ∧ ¬ ∃ packed, after.packIntoSlice (List.replicate 1300 0) =
      some packed := by
  intro obligation after
  have hempty : obligation.WellFormed := ⟨List.nodup_nil, List.nodup_nil, Nat.zero_le _⟩
  have hten : after.borrows.length = 10 := by decide +kernel
  refine ⟨hten, fun hpacks => ?_⟩
  obtain ⟨-, -, hnine⟩ := (packs_run obligation tenBorrows _ hempty).mp hpacks
  exact absurd (hten.symm.trans_le hnine) (by decide)

/-! ## What unpacks -/

theorem byteAt_take_of_lt {data : List UInt8} {len i : Nat} (h : i < len) :
    byteAt (data.take len) i = byteAt data i := by
  rw [byteAt, byteAt, List.getD, List.getD, List.getElem?_take_of_lt h]

/-- Three flags in a row: all are read, or the first that is neither 0 nor 1 is refused. -/
theorem unpackBools_run {β : Type} (a b c : ByteArr 1) (f : Bool → Bool → Bool → β) :
    let x : Unpacked β := do
      let stale ← unpackBool a
      let isolated ← unpackBool b
      let closeable ← unpackBool c
      return f stale isolated closeable
    let flags := u8FromLeBytes a ≤ 1 ∧ u8FromLeBytes b ≤ 1 ∧ u8FromLeBytes c ≤ 1
    (flags → ∃ result, x.run = some (.ok result)) ∧
      (¬ flags → x.run = some (.error .invalidAccountData)) := by
  intro x flags
  have hread : ∀ {src : ByteArr 1}, u8FromLeBytes src ≤ 1 → ∃ value, unpackBool src = pure value :=
    fun h => byByte_of_le h _ _ _
  have hrefused : ∀ {src : ByteArr 1}, ¬ u8FromLeBytes src ≤ 1 →
      unpackBool src = throw .invalidAccountData := fun h => byByte_of_not_le h _ _ _
  by_cases ha : u8FromLeBytes a ≤ 1
  · obtain ⟨stale, hstale⟩ := hread ha
    by_cases hb : u8FromLeBytes b ≤ 1
    · obtain ⟨isolated, hisolated⟩ := hread hb
      by_cases hc : u8FromLeBytes c ≤ 1
      · obtain ⟨closeable, hcloseable⟩ := hread hc
        refine ⟨fun _ => ⟨f stale isolated closeable, ?_⟩, fun h => absurd ⟨ha, hb, hc⟩ h⟩
        simp only [x, hstale, hisolated, hcloseable, pure_bind]
        rfl
      · refine ⟨fun h => absurd h.2.2 hc, fun _ => ?_⟩
        simp only [x, hstale, hisolated, hrefused hc, pure_bind]
        rfl
    · refine ⟨fun h => absurd h.2.1 hb, fun _ => ?_⟩
      simp only [x, hstale, hrefused hb, pure_bind]
      rfl
  · refine ⟨fun h => absurd h.1 ha, fun _ => ?_⟩
    simp only [x, hrefused ha]
    rfl

namespace Obligation

variable {input : ByteArr obligationLen}

/-- A later version is refused before anything else is read. -/
theorem unpackArray_of_version
    (h : programVersion < u8FromLeBytes (ObligationField.version.of input)) :
    (unpackArray input).run = some (.error .invalidAccountData) := by
  simp only [unpackArray, h, ↓reduceIte]
  rfl

/-- Entries that do not fit panic, whatever the flags are. -/
theorem unpackArray_of_not_fits
    (hversion : ¬ programVersion < u8FromLeBytes (ObligationField.version.of input))
    (h : ¬ obligationCollateralLen *
        (u8FromLeBytes (ObligationField.depositsLen.of input)).toNat +
      obligationLiquidityLen * (u8FromLeBytes (ObligationField.borrowsLen.of input)).toNat ≤
        dataFlatLen) : (unpackArray input).run = none := by
  have hentries : unpackEntries (u8FromLeBytes (ObligationField.depositsLen.of input))
      (u8FromLeBytes (ObligationField.borrowsLen.of input)) (ObligationField.dataFlat.of input).1 =
        none := by
    refine Option.eq_none_iff_forall_not_mem.mpr fun entries hsome => h ?_
    have hroom := exists_unpackEntries_iff.mp ⟨entries.1, entries.2, hsome⟩
    rwa [(ObligationField.dataFlat.of input).2] at hroom
  simp only [unpackArray, hversion, ↓reduceIte, hentries]
  rfl

/-- Otherwise the flags decide. -/
theorem unpackArray_of_fits
    (hversion : ¬ programVersion < u8FromLeBytes (ObligationField.version.of input))
    (h : obligationCollateralLen * (u8FromLeBytes (ObligationField.depositsLen.of input)).toNat +
      obligationLiquidityLen * (u8FromLeBytes (ObligationField.borrowsLen.of input)).toNat ≤
        dataFlatLen) :
    let flags := u8FromLeBytes (ObligationField.lastUpdateStale.of input) ≤ 1 ∧
      u8FromLeBytes (ObligationField.borrowingIsolatedAsset.of input) ≤ 1 ∧
        u8FromLeBytes (ObligationField.closeable.of input) ≤ 1
    (flags → ∃ obligation, (unpackArray input).run = some (.ok obligation)) ∧
      (¬ flags → (unpackArray input).run = some (.error .invalidAccountData)) := by
  have hroom : obligationCollateralLen *
        (u8FromLeBytes (ObligationField.depositsLen.of input)).toNat +
      obligationLiquidityLen * (u8FromLeBytes (ObligationField.borrowsLen.of input)).toNat ≤
        (ObligationField.dataFlat.of input).1.length := by
    rw [(ObligationField.dataFlat.of input).2]
    exact h
  obtain ⟨deposits, borrows, hentries⟩ := exists_unpackEntries_iff.mpr hroom
  have hrun : unpackArray input = (do
      let stale ← unpackBool (ObligationField.lastUpdateStale.of input)
      let isolated ← unpackBool (ObligationField.borrowingIsolatedAsset.of input)
      let closeable ← unpackBool (ObligationField.closeable.of input)
      return ofArray input deposits borrows stale isolated closeable) := by
    simp only [unpackArray, hversion, ↓reduceIte, hentries]
    rfl
  rw [hrun]
  exact unpackBools_run _ _ _ (ofArray input deposits borrows)

end Obligation

/-- **What unpacks.**  Every byte string is read, refused or panics, and which it is hangs on
its length and six of its bytes: the version, the two counts and the three flags. -/
theorem unpack_obligation_iff (data : List UInt8) :
    let outcome := (Obligation.unpackFromSlice data).run
    let fits := obligationCollateralLen * (byteAt data 202).toNat +
      obligationLiquidityLen * (byteAt data 203).toNat ≤ dataFlatLen
    let flags := byteAt data 9 ≤ 1 ∧ byteAt data 154 ≤ 1 ∧ byteAt data 187 ≤ 1
    (outcome = none ↔
        data.length < obligationLen ∨ byteAt data 0 ≤ programVersion ∧ ¬ fits) ∧
      ((∃ obligation, outcome = some (.ok obligation)) ↔ obligationLen ≤ data.length ∧
        byteAt data 0 ≤ programVersion ∧ fits ∧ flags) ∧
      ∀ e, outcome = some (.error e) → e = .invalidAccountData := by
  intro outcome fits flags
  by_cases hlen : obligationLen ≤ data.length
  · obtain ⟨input, hinput⟩ : ∃ input : ByteArr obligationLen,
        input = ⟨data.take obligationLen, List.length_take_of_le hlen⟩ := ⟨_, rfl⟩
    have houtcome : outcome = (Obligation.unpackArray input).run := by
      rw [hinput]
      exact congrArg ExceptT.run (dif_pos hlen)
    have hbyte : ∀ i (hi : i + 1 ≤ obligationLen),
        u8FromLeBytes (input.slice i 1 hi) = byteAt data i := by
      intro i hi
      rw [u8FromLeBytes_slice, hinput]
      exact byteAt_take_of_lt hi
    have hversionOf : u8FromLeBytes (ObligationField.version.of input) = byteAt data 0 :=
      hbyte 0 (by decide)
    have hstaleOf : u8FromLeBytes (ObligationField.lastUpdateStale.of input) = byteAt data 9 :=
      hbyte 9 (by decide)
    have hisolatedOf : u8FromLeBytes (ObligationField.borrowingIsolatedAsset.of input) =
        byteAt data 154 := hbyte 154 (by decide)
    have hcloseableOf : u8FromLeBytes (ObligationField.closeable.of input) = byteAt data 187 :=
      hbyte 187 (by decide)
    have hdepositsOf : u8FromLeBytes (ObligationField.depositsLen.of input) = byteAt data 202 :=
      hbyte 202 (by decide)
    have hborrowsOf : u8FromLeBytes (ObligationField.borrowsLen.of input) = byteAt data 203 :=
      hbyte 203 (by decide)
    by_cases hversion : programVersion < byteAt data 0
    · have hrun := Obligation.unpackArray_of_version (hversionOf.symm ▸ hversion)
      rw [houtcome, hrun]
      have hnot := UInt8.not_le.mpr hversion
      simp [hnot, Nat.not_lt.mpr hlen, eq_comm]
    · have hle := UInt8.not_lt.mp hversion
      have hversion' := hversionOf.symm ▸ hversion
      by_cases hfits : fits
      · have hruns := Obligation.unpackArray_of_fits hversion'
          (by rw [hdepositsOf, hborrowsOf]; exact hfits)
        rw [hstaleOf, hisolatedOf, hcloseableOf] at hruns
        by_cases hflags : flags
        · obtain ⟨obligation, hrun⟩ := hruns.1 hflags
          rw [houtcome, hrun]
          simp [hle, hfits, hflags, hlen]
        · rw [houtcome, hruns.2 hflags]
          simp [hfits, hflags, Nat.not_lt.mpr hlen, eq_comm]
      · rw [houtcome, Obligation.unpackArray_of_not_fits hversion'
          (by rw [hdepositsOf, hborrowsOf]; exact hfits)]
        simp [hle, hfits]
  · have houtcome : outcome = none := congrArg ExceptT.run (dif_neg hlen)
    rw [houtcome]
    simp [hlen, Nat.lt_of_not_le hlen]

end Solend

end Gyrfalcon
