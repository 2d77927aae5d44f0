import Gyrfalcon.Bundler
import Gyrfalcon.Lib.FirstSeen
import Mathlib.Algebra.Order.Floor.Div

/-!
# Token accounts (`bundler/src/ata.rs`)

Which associated token accounts the engine needs, the instructions that create
them, and the fee a Token-2022 transfer is expected to cost.  The derivation of
an address belongs to `spl-associated-token-account`, a third-party crate, and
is a parameter.

With one token program both lists are deduplicated alike.  With several, the
accounts are told apart by address and the instructions by mint: they agree
exactly when no mint is listed under two programs (`createsRequired_iff`).
-/

namespace Gyrfalcon

open FirstSeen

/-- `TokenkegQfeZyiNwAJbNbGKPFXCWuBvf9Ss623VQ5DA`. -/
def splTokenProgramId : Pubkey :=
  ⟨[6, 221, 246, 225, 215, 101, 161, 147, 217, 203, 225, 70, 206, 235, 121, 172,
    28, 180, 133, 237, 95, 91, 55, 145, 58, 140, 245, 133, 126, 255, 0, 169], rfl⟩

/-- `TokenzQdBNbLqP5VEhdkAS6EPFLC1PHnBqCXEpPxuEb`. -/
def splToken2022ProgramId : Pubkey :=
  ⟨[6, 221, 246, 225, 238, 117, 143, 222, 24, 66, 93, 188, 228, 108, 205, 218,
    182, 26, 252, 77, 131, 185, 13, 39, 254, 189, 249, 40, 216, 161, 139, 252], rfl⟩

/-! ## Accounts and instructions -/

/-- What the bundler calls of `spl-associated-token-account`. -/
structure SplAssociatedTokenAccount where
  getAssociatedTokenAddressWithProgramId : Pubkey → Pubkey → Pubkey → Pubkey
  createAssociatedTokenAccountIdempotent : Pubkey → Pubkey → Pubkey → Pubkey → Instruction

/-- The account a create instruction is about: the second of its list, behind the
payer. -/
def Instruction.createdAccount (instruction : Instruction) : Option Pubkey :=
  instruction.accounts[1]?.map AccountMeta.pubkey

section Builders

variable (spl : SplAssociatedTokenAccount)

def requiredAtas (owner : Pubkey) (mints : List Pubkey) (tokenProgram : Pubkey) : List Pubkey :=
  keepNew id [] (mints.map fun mint =>
    spl.getAssociatedTokenAddressWithProgramId owner mint tokenProgram)

def createAtaIdempotentInstruction (payer owner mint tokenProgram : Pubkey) : Instruction :=
  spl.createAssociatedTokenAccountIdempotent payer owner mint tokenProgram

def createAllAtasIdempotent (payer owner : Pubkey) (mints : List Pubkey) (tokenProgram : Pubkey) :
    List Instruction :=
  (keepNew id [] mints).map fun mint =>
    createAtaIdempotentInstruction spl payer owner mint tokenProgram

def requiredAtasWithPrograms (owner : Pubkey) (mintsAndPrograms : List (Pubkey × Pubkey)) :
    List Pubkey :=
  keepNew id [] (mintsAndPrograms.map fun p =>
    spl.getAssociatedTokenAddressWithProgramId owner p.1 p.2)

/-- Unlike the accounts, the instructions are deduplicated by mint alone. -/
def createAllAtasWithProgramsIdempotent (payer owner : Pubkey)
    (mintsAndPrograms : List (Pubkey × Pubkey)) : List Instruction :=
  (keepNew Prod.fst [] mintsAndPrograms).map fun p =>
    createAtaIdempotentInstruction spl payer owner p.1 p.2

/-- The create instruction names the address it creates as its second account. -/
def SplAssociatedTokenAccount.CreatesAddress : Prop :=
  ∀ payer owner mint tokenProgram,
    (spl.createAssociatedTokenAccountIdempotent payer owner mint tokenProgram).createdAccount =
      some (spl.getAssociatedTokenAddressWithProgramId owner mint tokenProgram)

/-- No two listed pairs share an address. -/
def SplAssociatedTokenAccount.TellsApart (owner : Pubkey)
    (mintsAndPrograms : List (Pubkey × Pubkey)) : Prop :=
  ∀ p ∈ mintsAndPrograms, ∀ q ∈ mintsAndPrograms,
    spl.getAssociatedTokenAddressWithProgramId owner p.1 p.2 =
      spl.getAssociatedTokenAddressWithProgramId owner q.1 q.2 → p = q

/-- The instructions create exactly the required accounts, each once and in order. -/
def CreatesRequired (payer owner : Pubkey) (mintsAndPrograms : List (Pubkey × Pubkey)) : Prop :=
  (createAllAtasWithProgramsIdempotent spl payer owner mintsAndPrograms).map
      Instruction.createdAccount =
    (requiredAtasWithPrograms spl owner mintsAndPrograms).map some ∧
  (requiredAtasWithPrograms spl owner mintsAndPrograms).Nodup

variable {spl}

/-- With distinct addresses, the required accounts are those of the distinct pairs. -/
theorem requiredAtasWithPrograms_eq {owner : Pubkey} {mintsAndPrograms : List (Pubkey × Pubkey)}
    (h : spl.TellsApart owner mintsAndPrograms) :
    requiredAtasWithPrograms spl owner mintsAndPrograms =
      (keepNew id [] mintsAndPrograms).map fun p =>
        spl.getAssociatedTokenAddressWithProgramId owner p.1 p.2 := by
  rw [requiredAtasWithPrograms, ← map_keepNew]
  refine congrArg (List.map _) (keepNew_congr fun p hp q hq => ?_)
  refine ⟨h p hp q hq, fun heq => ?_⟩
  rw [show p = q from heq]

theorem createdAccounts_eq (h : spl.CreatesAddress) (payer owner : Pubkey)
    (mintsAndPrograms : List (Pubkey × Pubkey)) :
    (createAllAtasWithProgramsIdempotent spl payer owner mintsAndPrograms).map
        Instruction.createdAccount =
      ((keepNew Prod.fst [] mintsAndPrograms).map fun p =>
        spl.getAssociatedTokenAddressWithProgramId owner p.1 p.2).map some := by
  rw [createAllAtasWithProgramsIdempotent, List.map_map, List.map_map]
  exact List.map_congr_left fun p _ => h payer owner p.1 p.2

end Builders

/-- With one program for all mints, every required account is created. -/
theorem createAllAtasIdempotent_createdAccounts (spl : SplAssociatedTokenAccount)
    (hcreates : spl.CreatesAddress) (payer owner : Pubkey) (mints : List Pubkey)
    (tokenProgram : Pubkey)
    (hinj : spl.TellsApart owner (mints.map fun mint => (mint, tokenProgram))) :
    (createAllAtasIdempotent spl payer owner mints tokenProgram).map Instruction.createdAccount =
      (requiredAtas spl owner mints tokenProgram).map some := by
  have hkeep : keepNew id [] mints = keepNew (fun mint =>
      spl.getAssociatedTokenAddressWithProgramId owner mint tokenProgram) [] mints := by
    refine keepNew_congr fun a ha b hb => ⟨fun heq => by rw [show a = b from heq], fun heq => ?_⟩
    exact congrArg Prod.fst (hinj _ (List.mem_map_of_mem ha) _ (List.mem_map_of_mem hb) heq)
  rw [requiredAtas, ← map_keepNew, ← hkeep, createAllAtasIdempotent, List.map_map, List.map_map]
  exact List.map_congr_left fun mint _ => hcreates payer owner mint tokenProgram

/-- **Mixed programs.**  Every required account is created, each once and in
order, if and only if no mint is listed under two token programs. -/
theorem createsRequired_iff (spl : SplAssociatedTokenAccount) (hcreates : spl.CreatesAddress)
    (payer owner : Pubkey) (mintsAndPrograms : List (Pubkey × Pubkey))
    (hinj : spl.TellsApart owner mintsAndPrograms) :
    CreatesRequired spl payer owner mintsAndPrograms ↔
      ∀ p ∈ mintsAndPrograms, ∀ q ∈ mintsAndPrograms, p.1 = q.1 → p.2 = q.2 := by
  have hnodup : (requiredAtasWithPrograms spl owner mintsAndPrograms).Nodup := by
    have hkeys := nodup_map_keepNew id [] (mintsAndPrograms.map fun p =>
      spl.getAssociatedTokenAddressWithProgramId owner p.1 p.2)
    rwa [List.map_id] at hkeys
  rw [CreatesRequired, and_iff_left hnodup, createdAccounts_eq hcreates,
    (Option.some_injective _).list_map.eq_iff, requiredAtasWithPrograms_eq hinj,
    map_keepNew_eq_iff hinj]
  constructor
  · intro h p hp q hq hmint
    exact congrArg Prod.snd (h p hp q hq hmint)
  · intro h p hp q hq hmint
    exact Prod.ext hmint (h p hp q hq hmint)

/-- The crate as far as the owner `[1; 32]` and the mints `[2; 32]` and `[3; 32]` are
concerned. -/
def SplAssociatedTokenAccount.sample : SplAssociatedTokenAccount :=
  let address (_ mint tokenProgram : Pubkey) : Pubkey :=
    if mint = Bytes32.fill 2 ∧ tokenProgram = splTokenProgramId then
      ⟨[176, 99, 127, 233, 131, 55, 212, 154, 113, 76, 127, 21, 154, 224, 163, 171,
        181, 82, 90, 105, 151, 7, 247, 203, 116, 68, 185, 82, 224, 246, 133, 60], rfl⟩
    else if mint = Bytes32.fill 2 ∧ tokenProgram = splToken2022ProgramId then
      ⟨[192, 202, 157, 161, 193, 250, 131, 114, 151, 236, 135, 100, 135, 172, 230, 52,
        114, 69, 88, 105, 122, 69, 5, 17, 160, 94, 4, 118, 34, 168, 93, 236], rfl⟩
    else
      ⟨[18, 164, 172, 89, 125, 45, 110, 178, 202, 210, 17, 160, 29, 194, 12, 144,
        134, 102, 108, 250, 91, 94, 116, 74, 208, 133, 123, 77, 226, 190, 70, 77], rfl⟩
  { getAssociatedTokenAddressWithProgramId := address
    createAssociatedTokenAccountIdempotent := fun payer owner mint tokenProgram =>
      { programId := ⟨[140, 151, 37, 143, 78, 36, 137, 241, 187, 61, 16, 41, 20, 142, 13, 131,
          11, 90, 19, 153, 218, 255, 16, 132, 4, 142, 123, 216, 219, 233, 248, 89], rfl⟩
        accounts := [
          AccountMeta.new payer true,
          AccountMeta.new (address owner mint tokenProgram) false,
          AccountMeta.newReadonly owner false,
          AccountMeta.newReadonly mint false,
          AccountMeta.newReadonly Pubkey.default false,
          AccountMeta.newReadonly tokenProgram false]
        data := [1] } }

theorem SplAssociatedTokenAccount.sample_createsAddress :
    SplAssociatedTokenAccount.sample.CreatesAddress := fun _ _ _ _ => rfl

/-- A mint listed twice under one program, and a Token-2022 mint. -/
theorem createsRequired_mixed :
    let pairs := [(Bytes32.fill 2, splTokenProgramId), (Bytes32.fill 3, splToken2022ProgramId),
      (Bytes32.fill 2, splTokenProgramId)]
    CreatesRequired .sample (Bytes32.fill 1) (Bytes32.fill 1) pairs := by
  intro pairs
  refine (createsRequired_iff .sample SplAssociatedTokenAccount.sample_createsAddress _ _ pairs
    ?_).mpr ?_
  · unfold SplAssociatedTokenAccount.TellsApart
    decide +kernel
  · decide +kernel

/-- One mint under both token programs needs two accounts; only one is created. -/
theorem mint_under_two_programs_created_once :
    let pairs := [(Bytes32.fill 2, splTokenProgramId), (Bytes32.fill 2, splToken2022ProgramId)]
    SplAssociatedTokenAccount.sample.CreatesAddress ∧
      SplAssociatedTokenAccount.sample.TellsApart (Bytes32.fill 1) pairs ∧
      (requiredAtasWithPrograms .sample (Bytes32.fill 1) pairs).length = 2 ∧
      (createAllAtasWithProgramsIdempotent .sample (Bytes32.fill 1) (Bytes32.fill 1)
        pairs).length = 1 ∧
      ¬ CreatesRequired .sample (Bytes32.fill 1) (Bytes32.fill 1) pairs := by
  intro pairs
  refine ⟨SplAssociatedTokenAccount.sample_createsAddress, ?_, by decide +kernel,
    by decide +kernel, ?_⟩
  · unfold SplAssociatedTokenAccount.TellsApart
    decide +kernel
  · unfold CreatesRequired
    decide +kernel

/-! ## Transfer fees -/

/-- The product is taken in 128 bits; its quotient is narrowed to 64 before the
cap is applied. -/
def calculateToken2022TransferFee (preFeeAmount : UInt64) (feeBasisPoints : UInt16)
    (maxFee : UInt64) : UInt64 :=
  let numerator := preFeeAmount.toNat * feeBasisPoints.toNat
  let fee := UInt64.ofNat (numerator / 10000)
  min fee maxFee

/-- What the transfer-fee extension withholds: rounded up, then capped. -/
def withheldFee (preFeeAmount : UInt64) (feeBasisPoints : UInt16) (maxFee : UInt64) : Nat :=
  min ((preFeeAmount.toNat * feeBasisPoints.toNat) ⌈/⌉ 10000) maxFee.toNat

/-- The computed fee covers the withheld one, and no smaller amount is charged more. -/
def FeeCovers (preFeeAmount : UInt64) (feeBasisPoints : UInt16) (maxFee : UInt64) : Prop :=
  withheldFee preFeeAmount feeBasisPoints maxFee ≤
      (calculateToken2022TransferFee preFeeAmount feeBasisPoints maxFee).toNat ∧
    ∀ smaller ≤ preFeeAmount,
      calculateToken2022TransferFee smaller feeBasisPoints maxFee ≤
        calculateToken2022TransferFee preFeeAmount feeBasisPoints maxFee

theorem toNat_calculateToken2022TransferFee (preFeeAmount : UInt64) (feeBasisPoints : UInt16)
    (maxFee : UInt64) :
    (calculateToken2022TransferFee preFeeAmount feeBasisPoints maxFee).toNat =
      min (preFeeAmount.toNat * feeBasisPoints.toNat / 10000 % 2 ^ 64) maxFee.toNat := by
  have hmin : ∀ a b : UInt64, (min a b).toNat = min a.toNat b.toNat := by
    intro a b
    by_cases h : a ≤ b
    · rw [show min a b = a from if_pos h, min_eq_left (UInt64.le_iff_toNat_le.mp h)]
    · have hle : b.toNat ≤ a.toNat := Nat.le_of_not_le fun hle => h (UInt64.le_iff_toNat_le.mpr hle)
      rw [show min a b = b from if_neg h, min_eq_right hle]
  simp only [calculateToken2022TransferFee, hmin, UInt64.toNat_ofNat']

/-- Rounding down covers rounding up only where the division is exact, and the
narrowed quotient only where it fits. -/
theorem ceilDiv_le_narrowed_iff (n : Nat) :
    n ⌈/⌉ 10000 ≤ n / 10000 % 2 ^ 64 ↔ 10000 ∣ n ∧ n / 10000 < 2 ^ 64 := by
  rw [ceilDiv_le_iff_le_mul (by decide)]
  omega

/-- **When fees are not under-predicted.**  Exactly when the cap is reached even
by the narrowed, rounded-down quotient, or when the quotient is exact and fits
in 64 bits. -/
theorem feeCovers_iff (preFeeAmount : UInt64) (feeBasisPoints : UInt16) (maxFee : UInt64) :
    FeeCovers preFeeAmount feeBasisPoints maxFee ↔
      maxFee.toNat ≤ preFeeAmount.toNat * feeBasisPoints.toNat / 10000 % 2 ^ 64 ∨
      10000 ∣ preFeeAmount.toNat * feeBasisPoints.toNat ∧
        preFeeAmount.toNat * feeBasisPoints.toNat / 10000 < 2 ^ 64 := by
  have hcovers : withheldFee preFeeAmount feeBasisPoints maxFee ≤
      (calculateToken2022TransferFee preFeeAmount feeBasisPoints maxFee).toNat ↔
      maxFee.toNat ≤ preFeeAmount.toNat * feeBasisPoints.toNat / 10000 % 2 ^ 64 ∨
      10000 ∣ preFeeAmount.toNat * feeBasisPoints.toNat ∧
        preFeeAmount.toNat * feeBasisPoints.toNat / 10000 < 2 ^ 64 := by
    rw [toNat_calculateToken2022TransferFee, withheldFee, ← ceilDiv_le_narrowed_iff]
    omega
  rw [FeeCovers, hcovers, and_iff_left_iff_imp]
  intro hcond smaller hsmaller
  have hquotient : smaller.toNat * feeBasisPoints.toNat / 10000 ≤
      preFeeAmount.toNat * feeBasisPoints.toNat / 10000 :=
    Nat.div_le_div_right (Nat.mul_le_mul_right _ (UInt64.le_iff_toNat_le.mp hsmaller))
  rw [UInt64.le_iff_toNat_le, toNat_calculateToken2022TransferFee,
    toNat_calculateToken2022TransferFee]
  rcases hcond with hcap | ⟨-, hfits⟩
  · rw [min_eq_right hcap]
    exact min_le_right _ _
  · rw [Nat.mod_eq_of_lt hfits, Nat.mod_eq_of_lt (hquotient.trans_lt hfits)]
    exact min_le_min_right _ hquotient

/-- At 50 basis points an amount of 1000001 is charged 5001 units and predicted at
5000; at 20000 basis points an amount of 2^63 is predicted free, and an amount
of 1 is not. -/
theorem transfer_fee_under_predicted :
    withheldFee 1000001 50 10000 = 5001 ∧ calculateToken2022TransferFee 1000001 50 10000 = 5000 ∧
      ¬ FeeCovers 1000001 50 10000 ∧
      calculateToken2022TransferFee 9223372036854775808 20000 100 <
        calculateToken2022TransferFee 1 20000 100 := by
  refine ⟨by decide +kernel, by decide +kernel, fun h => ?_, by decide +kernel⟩
  exact absurd h.1 (by decide +kernel)

end Gyrfalcon
