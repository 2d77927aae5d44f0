import Mathlib.Algebra.Order.Field.Rat

/-!
# Shared data types

The records that cross crate boundaries (`crates/core`) and the part of the
configuration schema the engine reads (`crates/config`).

* An `f64` of the source is a value of the parameter `F`; the pipeline is read
  at `F = ℚ`, exact rationals.
* A `u64`, `u128` or `usize` is a `Nat`; where the source can overflow or
  saturates, the wrap-around or the bound is written out (`u64Max`,
  `% 2 ^ 64`).  A `u32` that is compared after being incremented is a `UInt32`.
* 32-byte keys carry the proof of their length.
-/

namespace Gyrfalcon

/-! ## Keys -/

/-- 32 raw bytes: a `Pubkey` or a block `Hash`. -/
structure Bytes32 where
  bytes : List UInt8
  length_eq : bytes.length = 32
  deriving DecidableEq, Repr

/-- `[b; 32]`. -/
def Bytes32.fill (b : UInt8) : Bytes32 := ⟨List.replicate 32 b, List.length_replicate⟩

abbrev Pubkey := Bytes32
abbrev Hash := Bytes32

/-- `Pubkey::default()`: the all-zero key. -/
def Pubkey.default : Pubkey := Bytes32.fill 0

/-- `Hash::default()`. -/
def Hash.default : Hash := Bytes32.fill 0

/-- `KLend2g3cP87fffoy8q1mQqGKjrxjC8boSyAYavgmjD`, the klend program: the
address `bundler::programs::kamino_program_id` parses, and the one
`health::adapters::kamino` reads from `klend_interface::KLEND_PROGRAM_ID`. -/
def kaminoProgramId : Pubkey :=
  ⟨[4, 178, 172, 177, 18, 88, 204, 227, 104, 44, 65, 139, 168, 114, 255, 61,
    249, 17, 2, 113, 47, 21, 175, 18, 182, 190, 105, 179, 67, 91, 0, 8], rfl⟩

/-- `u64::MAX`. -/
def u64Max : Nat := 2 ^ 64 - 1

/-! ## Enums (`core/src/protocol.rs`) -/

inductive Protocol where
  | kamino
  deriving DecidableEq, Repr

inductive RevertReason where
  | raceLost
  | slippageExceeded
  | computeExhausted
  | flashRepayFailed
  | programError (log : String)
  deriving DecidableEq, Repr

/-! ## Pipeline records (`core/src/types.rs`, `core/src/traits.rs`) -/

/-- One raw account update, routed to an adapter but not yet decoded. -/
structure AccountUpdate where
  pubkey : Pubkey
  owner : Pubkey
  data : List UInt8
  slot : Nat
  deriving DecidableEq, Repr

structure BreachCandidate (F : Type) where
  protocol : Protocol
  positionId : Pubkey
  collateralMint : Pubkey
  debtMint : Pubkey
  healthFactor : F
  closeFactorMaxRepay : Nat
  slot : Nat
  deriving DecidableEq, Repr

structure FlashSource where
  protocol : Protocol
  reserve : Pubkey
  feeBps : Nat
  deriving DecidableEq, Repr

/-- Whitepaper Eq. 2 components. -/
structure ProfitEstimate (F : Type) where
  bonusUsd : F
  estSlippageUsd : F
  flashFeeUsd : F
  estCuCostUsd : F
  bidTipUsd : F
  netUsd : F
  deriving DecidableEq, Repr

/-- Output of `strategy::size_and_route`. -/
structure RoutedCandidate (F : Type) where
  candidate : BreachCandidate F
  repayAmount : Nat
  flashSource : FlashSource
  expected : ProfitEstimate F
  deriving DecidableEq, Repr

/-- Output of `sim::simulate`. -/
structure SimResult (F : Type) where
  routed : RoutedCandidate F
  feasible : Bool
  cuMeasured : Nat
  txBytes : Nat
  profitable : Bool
  deriving DecidableEq, Repr

structure Bundle (F : Type) where
  sim : SimResult F
  versionedTx : List UInt8
  altKeys : List Pubkey
  deriving DecidableEq, Repr

/-- Output of `submit::send`. -/
inductive SubmitOutcome (F : Type) where
  | landed (slot : Nat) (actualNetUsd : F)
  | reverted (reason : RevertReason)
  | notIncluded
  deriving DecidableEq, Repr

/-- Persisted on every terminal outcome. -/
structure LiquidationRecord (F : Type) where
  routed : RoutedCandidate F
  outcome : SubmitOutcome F
  submittedAtSlot : Nat
  resolvedAtSlot : Nat
  deriving DecidableEq, Repr

/-- The trait `FlashSourceRouter`: a source reserve for a mint and an amount. -/
abbrev FlashSourceRouter := Pubkey → Nat → Option FlashSource

/-! ## Configuration (`config/src/lib.rs`) -/

structure TreasuryConfig (F : Type) where
  walletPath : String
  minBalanceSol : F
  sweepInterval : String
  deriving DecidableEq, Repr

inductive SubmitMode where
  | observe
  | live
  deriving DecidableEq, Repr

/-- `Display for SubmitMode`. -/
def SubmitMode.display : SubmitMode → String
  | .observe => "observe"
  | .live => "live"

structure SubmitConfig where
  mode : SubmitMode
  leadersAhead : Nat
  dualPath : Bool
  timeoutMs : Option Nat
  deriving DecidableEq, Repr

structure RiskConfig (F : Type) where
  minProfitUsd : F
  minTipUsd : F
  syncLagHaltSlots : Nat
  contentionCeiling : F
  maxTipPerTxUsd : F
  maxTipPerSlotUsd : F
  maxTipPctOfBonus : F
  maxDrawdownUsd : F
  consecutiveRevertLimit : UInt32
  deriving DecidableEq, Repr

/-- The sections of `Config` that the engine's logic reads; endpoints and key
paths are left out. -/
structure Config (F : Type) where
  treasury : TreasuryConfig F
  submit : SubmitConfig
  risk : RiskConfig F
  deriving DecidableEq, Repr

inductive ConfigError where
  | invalidRevertLimit (limit : UInt32)
  deriving DecidableEq, Repr

/-- `Config::validate`, run by `Config::load` before the engine starts. -/
def Config.validate {F : Type} (config : Config F) : Except ConfigError Unit :=
  if config.risk.consecutiveRevertLimit = 0 then
    .error (.invalidRevertLimit config.risk.consecutiveRevertLimit)
  else .ok ()

theorem Config.validate_ok_iff {F : Type} (config : Config F) :
    config.validate = .ok () ↔ 0 < config.risk.consecutiveRevertLimit.toNat := by
  unfold Config.validate
  split
  · next h => simp [h]
  · next h =>
    simp only [true_iff]
    exact Nat.pos_of_ne_zero fun h0 => h (UInt32.toNat_inj.mp h0)

end Gyrfalcon
