import Gyrfalcon.Bundler
import Gyrfalcon.LendingInstruction

/-!
# Save flash loans (`bundler/src/liquidations.rs`)

The bundler writes its own Save flash-borrow and flash-repay instructions; the
SDK shipped with the repository builds the same two through its codec.  The
accounts agree, the tags do not: the bundler's bytes are those of two other
instructions.
-/

namespace Gyrfalcon

open LendingInstruction

/-- Addresses both encoders take from `solana-sdk` and `spl-token`. -/
structure ProgramEnv where
  findProgramAddress : List (List UInt8) → Pubkey → Pubkey × UInt8
  instructionsSysvarId : Pubkey
  splTokenProgramId : Pubkey

/-! ## The bundler -/

def buildSaveFlashBorrowInstruction (env : ProgramEnv) (programId : Pubkey)
    (liquidityAmount : UInt64)
    (sourceLiquidity destinationLiquidity reserve lendingMarket : Pubkey) : Instruction :=
  let (lendingMarketAuthority, _) := env.findProgramAddress [lendingMarket.bytes.take 32] programId
  { programId
    accounts := [
      AccountMeta.new sourceLiquidity false,
      AccountMeta.new destinationLiquidity false,
      AccountMeta.new reserve false,
      AccountMeta.newReadonly lendingMarket false,
      AccountMeta.newReadonly lendingMarketAuthority false,
      AccountMeta.newReadonly env.instructionsSysvarId false,
      AccountMeta.newReadonly env.splTokenProgramId false]
    data := 14 :: packU64 liquidityAmount }

def buildSaveFlashRepayInstruction (env : ProgramEnv) (programId : Pubkey)
    (liquidityAmount : UInt64) (borrowInstructionIndex : UInt8)
    (sourceLiquidity destinationLiquidity feeReceiver hostFeeReceiver reserve lendingMarket
      userTransferAuthority : Pubkey) : Instruction where
  programId := programId
  accounts := [
    AccountMeta.new sourceLiquidity false,
    AccountMeta.new destinationLiquidity false,
    AccountMeta.new feeReceiver false,
    AccountMeta.new hostFeeReceiver false,
    AccountMeta.new reserve false,
    AccountMeta.newReadonly lendingMarket false,
    AccountMeta.newReadonly userTransferAuthority true,
    AccountMeta.newReadonly env.instructionsSysvarId false,
    AccountMeta.newReadonly env.splTokenProgramId false]
  data := 15 :: (packU64 liquidityAmount ++ [borrowInstructionIndex])

/-! ## The SDK -/

def flashBorrowReserveLiquidity (env : ProgramEnv) (programId : Pubkey)
    (liquidityAmount : UInt64)
    (sourceLiquidityPubkey destinationLiquidityPubkey reservePubkey lendingMarketPubkey : Pubkey) :
    Instruction :=
  let (lendingMarketAuthorityPubkey, _) :=
    env.findProgramAddress [lendingMarketPubkey.bytes.take 32] programId
  { programId
    accounts := [
      AccountMeta.new sourceLiquidityPubkey false,
      AccountMeta.new destinationLiquidityPubkey false,
      AccountMeta.new reservePubkey false,
      AccountMeta.newReadonly lendingMarketPubkey false,
      AccountMeta.newReadonly lendingMarketAuthorityPubkey false,
      AccountMeta.newReadonly env.instructionsSysvarId false,
      AccountMeta.newReadonly env.splTokenProgramId false]
    data := (LendingInstruction.flashBorrowReserveLiquidity liquidityAmount).pack }

def flashRepayReserveLiquidity (env : ProgramEnv) (programId : Pubkey)
    (liquidityAmount : UInt64) (borrowInstructionIndex : UInt8)
    (sourceLiquidityPubkey destinationLiquidityPubkey reserveLiquidityFeeReceiverPubkey
      hostFeeReceiverPubkey reservePubkey lendingMarketPubkey
      userTransferAuthorityPubkey : Pubkey) : Instruction where
  programId := programId
  accounts := [
    AccountMeta.new sourceLiquidityPubkey false,
    AccountMeta.new destinationLiquidityPubkey false,
    AccountMeta.new reserveLiquidityFeeReceiverPubkey false,
    AccountMeta.new hostFeeReceiverPubkey false,
    AccountMeta.new reservePubkey false,
    AccountMeta.newReadonly lendingMarketPubkey false,
    AccountMeta.newReadonly userTransferAuthorityPubkey true,
    AccountMeta.newReadonly env.instructionsSysvarId false,
    AccountMeta.newReadonly env.splTokenProgramId false]
  data := (LendingInstruction.flashRepayReserveLiquidity liquidityAmount
    borrowInstructionIndex).pack

/-! ## Agreement -/

section Agreement

variable (env : ProgramEnv) (programId : Pubkey) (liquidityAmount : UInt64)
variable (borrowInstructionIndex : UInt8)
variable (sourceLiquidity destinationLiquidity feeReceiver hostFeeReceiver reserve lendingMarket
  userTransferAuthority : Pubkey)

/-- The bundler's flash borrow is the SDK's, and unpacks to it. -/
def BorrowAgrees : Prop :=
  let instruction := buildSaveFlashBorrowInstruction env programId liquidityAmount sourceLiquidity
    destinationLiquidity reserve lendingMarket
  instruction = flashBorrowReserveLiquidity env programId liquidityAmount sourceLiquidity
      destinationLiquidity reserve lendingMarket ∧
    unpack instruction.data = .ok (.flashBorrowReserveLiquidity liquidityAmount)

/-- The bundler's flash repay is the SDK's, and unpacks to it. -/
def RepayAgrees : Prop :=
  let instruction := buildSaveFlashRepayInstruction env programId liquidityAmount
    borrowInstructionIndex sourceLiquidity destinationLiquidity feeReceiver hostFeeReceiver reserve
    lendingMarket userTransferAuthority
  instruction = flashRepayReserveLiquidity env programId liquidityAmount borrowInstructionIndex
      sourceLiquidity destinationLiquidity feeReceiver hostFeeReceiver reserve lendingMarket
      userTransferAuthority ∧
    unpack instruction.data =
      .ok (.flashRepayReserveLiquidity liquidityAmount borrowInstructionIndex)

/-- Everything but the data agrees on the borrow side. -/
theorem buildSaveFlashBorrow_accounts :
    (buildSaveFlashBorrowInstruction env programId liquidityAmount sourceLiquidity
      destinationLiquidity reserve lendingMarket).accounts =
    (flashBorrowReserveLiquidity env programId liquidityAmount sourceLiquidity
      destinationLiquidity reserve lendingMarket).accounts := rfl

/-- Everything but the data agrees on the repay side. -/
theorem buildSaveFlashRepay_accounts :
    (buildSaveFlashRepayInstruction env programId liquidityAmount borrowInstructionIndex
      sourceLiquidity destinationLiquidity feeReceiver hostFeeReceiver reserve lendingMarket
      userTransferAuthority).accounts =
    (flashRepayReserveLiquidity env programId liquidityAmount borrowInstructionIndex
      sourceLiquidity destinationLiquidity feeReceiver hostFeeReceiver reserve lendingMarket
      userTransferAuthority).accounts := rfl

/-- To the lending program the bundler's flash borrow is a deposit. -/
theorem unpack_buildSaveFlashBorrow :
    unpack (buildSaveFlashBorrowInstruction env programId liquidityAmount sourceLiquidity
      destinationLiquidity reserve lendingMarket).data =
        .ok (.depositReserveLiquidityAndObligationCollateral liquidityAmount) :=
  unpack_pack (.depositReserveLiquidityAndObligationCollateral liquidityAmount) (by simp)

/-- To the lending program the bundler's flash repay is a withdrawal: the trailing
index is ignored. -/
theorem unpack_buildSaveFlashRepay :
    unpack (buildSaveFlashRepayInstruction env programId liquidityAmount borrowInstructionIndex
      sourceLiquidity destinationLiquidity feeReceiver hostFeeReceiver reserve lendingMarket
      userTransferAuthority).data =
        .ok (.withdrawObligationCollateralAndRedeemReserveCollateral liquidityAmount) := by
  have h : ByteCodec.Reads (unpackBody 15) (packU64 liquidityAmount)
      (.withdrawObligationCollateralAndRedeemReserveCollateral liquidityAmount) :=
    reads_amount _ liquidityAmount
  exact unpack_cons_append_of_reads h [borrowInstructionIndex]

/-- **The encoders never agree.**  For every amount, index, program id and keys,
neither instruction is the one the SDK builds, and neither unpacks to it. -/
theorem saveFlash_never_agrees (env : ProgramEnv) (programId : Pubkey) (liquidityAmount : UInt64)
    (borrowInstructionIndex : UInt8)
    (sourceLiquidity destinationLiquidity feeReceiver hostFeeReceiver reserve lendingMarket
      userTransferAuthority : Pubkey) :
    ¬ BorrowAgrees env programId liquidityAmount sourceLiquidity destinationLiquidity reserve
        lendingMarket ∧
      ¬ RepayAgrees env programId liquidityAmount borrowInstructionIndex sourceLiquidity
        destinationLiquidity feeReceiver hostFeeReceiver reserve lendingMarket
        userTransferAuthority := by
  constructor
  · rintro ⟨-, hunpack⟩
    rw [unpack_buildSaveFlashBorrow] at hunpack
    cases hunpack
  · rintro ⟨-, hunpack⟩
    rw [unpack_buildSaveFlashRepay] at hunpack
    cases hunpack

end Agreement

/-- A million units: the bundler writes tag 14, the SDK tag 19, and the codec
reads the bundler's bytes as a deposit. -/
theorem saveFlashBorrow_is_a_deposit :
    let env : ProgramEnv :=
      ⟨fun _ _ => (Bytes32.fill 7, 255), Bytes32.fill 8, Bytes32.fill 9⟩
    let bundled := buildSaveFlashBorrowInstruction env (Bytes32.fill 1) 1000000 (Bytes32.fill 2)
      (Bytes32.fill 3) (Bytes32.fill 4) (Bytes32.fill 5)
    let expected := flashBorrowReserveLiquidity env (Bytes32.fill 1) 1000000 (Bytes32.fill 2)
      (Bytes32.fill 3) (Bytes32.fill 4) (Bytes32.fill 5)
    bundled.data = [14, 64, 66, 15, 0, 0, 0, 0, 0] ∧
      expected.data = [19, 64, 66, 15, 0, 0, 0, 0, 0] ∧ bundled ≠ expected ∧
      unpack bundled.data = .ok (.depositReserveLiquidityAndObligationCollateral 1000000) := by
  intro env bundled expected
  refine ⟨by decide, by decide, by decide, unpack_buildSaveFlashBorrow _ _ _ _ _ _ _⟩

end Gyrfalcon
