import Gyrfalcon.Feasibility
import Gyrfalcon.SaveFlash

/-!
# Flash loans in a transaction (`bundler/src/liquidations.rs`, `bundler/src/lib.rs`)

A flash repay carries the index of the instruction that borrowed.  The builders
write the index they are given into the data; `assemble` then puts one or two
compute-budget instructions in front.  `referenceSurvives_iff` says when the
instruction at that index is still the flash borrow.
-/

namespace Gyrfalcon

open LendingInstruction

/-! ## Builders -/

def buildFlashBorrowInstruction
    (programId borrowReserve liquiditySupply destinationLiquidity tokenProgram : Pubkey)
    (amount : UInt64) : Instruction where
  programId := programId
  accounts := [
    AccountMeta.new borrowReserve false,
    AccountMeta.new liquiditySupply false,
    AccountMeta.new destinationLiquidity false,
    AccountMeta.newReadonly tokenProgram false]
  data := 14 :: packU64 amount

def buildFlashRepayInstruction
    (programId repayReserve sourceLiquidity liquiditySupply userAuthority tokenProgram : Pubkey)
    (amount : UInt64) (borrowInstructionIndex : UInt8) : Instruction where
  programId := programId
  accounts := [
    AccountMeta.new repayReserve false,
    AccountMeta.new sourceLiquidity false,
    AccountMeta.new liquiditySupply false,
    AccountMeta.newReadonly userAuthority true,
    AccountMeta.newReadonly tokenProgram false]
  data := 15 :: (packU64 amount ++ [borrowInstructionIndex])

def buildKaminoFlashBorrowInstruction (env : ProgramEnv) (programId : Pubkey)
    (liquidityAmount : UInt64)
    (reserve lendingMarket reserveSourceLiquidity userDestinationLiquidity
      tokenProgram : Pubkey) : Instruction :=
  let (lendingMarketAuthority, _) := env.findProgramAddress [lendingMarket.bytes.take 32] programId
  { programId
    accounts := [
      AccountMeta.new userDestinationLiquidity false,
      AccountMeta.new reserveSourceLiquidity false,
      AccountMeta.new reserve false,
      AccountMeta.newReadonly lendingMarket false,
      AccountMeta.newReadonly lendingMarketAuthority false,
      AccountMeta.newReadonly env.instructionsSysvarId false,
      AccountMeta.newReadonly tokenProgram false]
    data := [0x87, 0xe7, 0x34, 0xa7, 0x07, 0x34, 0xd4, 0xc1] ++ packU64 liquidityAmount }

def buildKaminoFlashRepayInstruction (env : ProgramEnv) (programId : Pubkey)
    (liquidityAmount : UInt64) (borrowInstructionIndex : UInt8)
    (reserve lendingMarket userSourceLiquidity reserveDestinationLiquidity userTransferAuthority
      tokenProgram : Pubkey) : Instruction where
  programId := programId
  accounts := [
    AccountMeta.new userSourceLiquidity false,
    AccountMeta.new reserveDestinationLiquidity false,
    AccountMeta.new reserve false,
    AccountMeta.newReadonly lendingMarket false,
    AccountMeta.newReadonly userTransferAuthority true,
    AccountMeta.newReadonly env.instructionsSysvarId false,
    AccountMeta.newReadonly tokenProgram false]
  data := [0xb9, 0x75, 0x00, 0xcb, 0x60, 0xf5, 0xb4, 0xba] ++ packU64 liquidityAmount ++
    [borrowInstructionIndex]

/-- Built by one of the three flash-borrow builders. -/
inductive IsFlashBorrow (env : ProgramEnv) : Instruction → Prop where
  | generic (programId borrowReserve liquiditySupply destinationLiquidity tokenProgram : Pubkey)
      (amount : UInt64) :
      IsFlashBorrow env (buildFlashBorrowInstruction programId borrowReserve liquiditySupply
        destinationLiquidity tokenProgram amount)
  | save (programId : Pubkey) (amount : UInt64)
      (sourceLiquidity destinationLiquidity reserve lendingMarket : Pubkey) :
      IsFlashBorrow env (buildSaveFlashBorrowInstruction env programId amount sourceLiquidity
        destinationLiquidity reserve lendingMarket)
  | kamino (programId : Pubkey) (amount : UInt64)
      (reserve lendingMarket reserveSourceLiquidity userDestinationLiquidity
        tokenProgram : Pubkey) :
      IsFlashBorrow env (buildKaminoFlashBorrowInstruction env programId amount reserve
        lendingMarket reserveSourceLiquidity userDestinationLiquidity tokenProgram)

/-- Built by one of the three flash-repay builders, for the borrow at `index`. -/
inductive IsFlashRepay (env : ProgramEnv) (index : UInt8) : Instruction → Prop where
  | generic (programId repayReserve sourceLiquidity liquiditySupply userAuthority
      tokenProgram : Pubkey) (amount : UInt64) :
      IsFlashRepay env index (buildFlashRepayInstruction programId repayReserve sourceLiquidity
        liquiditySupply userAuthority tokenProgram amount index)
  | save (programId : Pubkey) (amount : UInt64)
      (sourceLiquidity destinationLiquidity feeReceiver hostFeeReceiver reserve lendingMarket
        userTransferAuthority : Pubkey) :
      IsFlashRepay env index (buildSaveFlashRepayInstruction env programId amount index
        sourceLiquidity destinationLiquidity feeReceiver hostFeeReceiver reserve lendingMarket
        userTransferAuthority)
  | kamino (programId : Pubkey) (amount : UInt64)
      (reserve lendingMarket userSourceLiquidity reserveDestinationLiquidity
        userTransferAuthority tokenProgram : Pubkey) :
      IsFlashRepay env index (buildKaminoFlashRepayInstruction env programId amount index reserve
        lendingMarket userSourceLiquidity reserveDestinationLiquidity userTransferAuthority
        tokenProgram)

/-! ## Instructions of a transaction -/

/-- What the bundler relies on: against the lookup tables of the chain, a v0 message keeps
its instructions in order, and compute-budget instructions name no account. -/
structure SolanaSdk.Resolves (sdk : SolanaSdk)
    (resolve : Chain → sdk.VersionedTransaction → List ResolvedInstruction) : Prop where
  compiled : ∀ (chain : Chain) payer instructions tables blockhash message tx,
    chain.Holds tables → sdk.tryCompile payer instructions tables blockhash = .ok message →
      sdk.tryNew message = .ok tx → resolve chain tx = instructions.map Instruction.resolved
  limitAccounts : ∀ limit, (sdk.setComputeUnitLimit limit).accounts = []
  priceAccounts : ∀ price, (sdk.setComputeUnitPrice price).accounts = []

/-- How many instructions `assemble` puts in front. -/
def BundleParams.prepended (params : BundleParams) : Nat :=
  1 + (if params.cuPriceMicroLamports.isSome then 1 else 0)

/-- A flash borrow at position `index`, and a flash repay that names it. -/
structure FlashRoute (env : ProgramEnv) (params : BundleParams) (index : UInt8)
    (borrow : Instruction) : Prop where
  isBorrow : IsFlashBorrow env borrow
  position : params.instructions[index.toNat]? = some borrow
  repaid : ∃ repay ∈ params.instructions, IsFlashRepay env index repay

section Assembled

variable {sdk : SolanaSdk}
  {resolve : Chain → sdk.VersionedTransaction → List ResolvedInstruction}
  {params : BundleParams} {tx : sdk.VersionedTransaction} {chain : Chain}

theorem resolve_of_assemble (h : sdk.Resolves resolve)
    (hchain : chain.Holds params.addressLookupTables) (htx : assemble sdk params = .ok tx) :
    resolve chain tx = (params.budgeted sdk).map Instruction.resolved := by
  obtain ⟨message, tx', bytes, hcompile, hsign, hbytes⟩ | ⟨e, herror, -⟩ :=
    assemble_cases sdk params
  · rw [assemble_of_signed hcompile hsign hbytes] at htx
    split at htx
    · cases htx
    · cases htx
      exact h.compiled _ _ _ _ _ _ _ hchain hcompile hsign
  · rw [htx] at herror
    cases herror

theorem IsFlashBorrow.accounts_ne_nil {env : ProgramEnv} {borrow : Instruction}
    (h : IsFlashBorrow env borrow) : borrow.accounts ≠ [] := by
  cases h <;> exact List.cons_ne_nil _ _

/-- A compute-budget instruction: it sets the limit, or the price. -/
def SolanaSdk.IsBudget (sdk : SolanaSdk) (instruction : Instruction) : Prop :=
  (∃ limit, instruction = sdk.setComputeUnitLimit limit) ∨
    ∃ price, instruction = sdk.setComputeUnitPrice price

/-- A compute-budget instruction names no account, a flash borrow does. -/
theorem SolanaSdk.Resolves.budget_ne_borrow (h : sdk.Resolves resolve) {env : ProgramEnv}
    {instruction borrow : Instruction} (hbudget : sdk.IsBudget instruction)
    (hborrow : IsFlashBorrow env borrow) : instruction.resolved ≠ borrow.resolved := by
  have haccounts : instruction.accounts = [] := by
    rcases hbudget with ⟨limit, rfl⟩ | ⟨price, rfl⟩
    · exact h.limitAccounts limit
    · exact h.priceAccounts price
  intro heq
  have hsame := congrArg ResolvedInstruction.accounts heq
  simp only [Instruction.resolved, haccounts, List.map_nil] at hsame
  exact hborrow.accounts_ne_nil (List.map_eq_nil_iff.mp hsame.symm)

/-- The compute-budget part and the route. -/
theorem budgeted_eq (sdk : SolanaSdk) (params : BundleParams) :
    ∃ budget, params.budgeted sdk = budget ++ params.instructions ∧
      budget.length = params.prepended ∧ ∀ instruction ∈ budget, sdk.IsBudget instruction := by
  cases hprice : params.cuPriceMicroLamports with
  | none =>
    refine ⟨[sdk.setComputeUnitLimit params.cuLimit], ?_, ?_, ?_⟩
    · simp [BundleParams.budgeted, hprice]
    · simp [BundleParams.prepended, hprice]
    · intro instruction hmem
      exact Or.inl ⟨params.cuLimit, List.mem_singleton.mp hmem⟩
  | some price =>
    refine ⟨[sdk.setComputeUnitLimit params.cuLimit, sdk.setComputeUnitPrice price], ?_, ?_, ?_⟩
    · simp [BundleParams.budgeted, hprice]
    · simp [BundleParams.prepended, hprice]
    · intro instruction hmem
      rcases List.mem_cons.mp hmem with rfl | hmem
      · exact Or.inl ⟨params.cuLimit, rfl⟩
      · exact Or.inr ⟨price, List.mem_singleton.mp hmem⟩

/-- The borrow moves by the number of instructions put in front of it. -/
theorem borrow_shifted {env : ProgramEnv} {index : UInt8} {borrow : Instruction}
    (h : sdk.Resolves resolve) (hchain : chain.Holds params.addressLookupTables)
    (htx : assemble sdk params = .ok tx) (hroute : FlashRoute env params index borrow) :
    (resolve chain tx)[index.toNat + params.prepended]? = some borrow.resolved := by
  obtain ⟨budget, heq, hlen, -⟩ := budgeted_eq sdk params
  rw [resolve_of_assemble h hchain htx, heq, List.getElem?_map, Nat.add_comm, ← hlen,
    List.getElem?_append_right (Nat.le_add_right _ _), Nat.add_sub_cancel_left, hroute.position]
  rfl

end Assembled

/-- **When a flash-repay reference survives assembly.**  With the tables that are on the
chain, exactly when the same flash borrow also stands as many positions earlier as
instructions are put in front: one, or two with a compute-unit price. -/
theorem referenceSurvives_iff (env : ProgramEnv) (sdk : SolanaSdk)
    (resolve : Chain → sdk.VersionedTransaction → List ResolvedInstruction)
    (h : sdk.Resolves resolve) (params : BundleParams) (index : UInt8) (borrow : Instruction)
    (hroute : FlashRoute env params index borrow) (tx : sdk.VersionedTransaction)
    (htx : assemble sdk params = .ok tx) (chain : Chain)
    (hchain : chain.Holds params.addressLookupTables) :
    (resolve chain tx)[index.toNat]? = some borrow.resolved ↔
      ∃ earlier, earlier + params.prepended = index.toNat ∧
        params.instructions[earlier]?.map Instruction.resolved = some borrow.resolved := by
  obtain ⟨budget, heq, hlen, hbudget⟩ := budgeted_eq sdk params
  rw [resolve_of_assemble h hchain htx, heq, List.getElem?_map]
  by_cases hfront : index.toNat < budget.length
  · refine iff_of_false ?_ ?_
    · rw [List.getElem?_append_left hfront]
      intro hsome
      obtain ⟨instruction, hget, hresolved⟩ := Option.map_eq_some_iff.mp hsome
      have hset := hbudget instruction (List.mem_of_getElem? hget)
      exact h.budget_ne_borrow hset hroute.isBorrow hresolved
    · rintro ⟨earlier, hindex, -⟩
      omega
  · have hback : budget.length ≤ index.toNat := Nat.le_of_not_lt hfront
    rw [List.getElem?_append_right hback, hlen]
    constructor
    · intro hsome
      exact ⟨index.toNat - params.prepended, by omega, hsome⟩
    · rintro ⟨earlier, hindex, hsome⟩
      rwa [← hindex, Nat.add_sub_cancel]

/-! ## Two routes -/

/-- The runtime's reading of a transaction of the v0 encoder. -/
def MessageV0.resolve (chain : Chain) (tx : MessageV0.Transaction) : List ResolvedInstruction :=
  tx.message.resolve chain

theorem MessageV0.encoder_resolves (signature : MessageV0.Signature) :
    (MessageV0.encoder signature).Resolves MessageV0.resolve where
  compiled chain payer instructions tables blockhash message tx hchain hcompile hsign := by
    simp only [MessageV0.encoder] at hsign
    split at hsign
    · cases hsign
      exact MessageV0.resolve_of_tryCompile hchain hcompile
    · cases hsign
  limitAccounts _ := rfl
  priceAccounts _ := rfl

/-- The encoder, with one signature on everything. -/
def sampleSdk : SolanaSdk := (MessageV0.encoder MessageV0.defaultSignature).toSolanaSdk

/-- A million units borrowed from reserve `[2; 32]`. -/
def sampleBorrow : Instruction :=
  buildFlashBorrowInstruction kaminoProgramId (Bytes32.fill 2) (Bytes32.fill 3) (Bytes32.fill 4)
    (Bytes32.fill 5) 1000000

/-- Their repayment, for the borrow at `index`. -/
def sampleRepay (index : UInt8) : Instruction :=
  buildFlashRepayInstruction kaminoProgramId (Bytes32.fill 2) (Bytes32.fill 4) (Bytes32.fill 3)
    (Bytes32.fill 6) (Bytes32.fill 5) 1000000 index

/-- A table that holds most of their accounts. -/
def sampleTable : AddressLookupTableAccount :=
  ⟨Bytes32.fill 20, [Bytes32.fill 5, Bytes32.fill 9, Bytes32.fill 3, Bytes32.fill 2]⟩

def sampleChain : Chain := fun _ => sampleTable.addresses

def sampleParams (instructions : List Instruction) (price : Option Nat) : BundleParams :=
  ⟨instructions, 200000, price, Bytes32.fill 6, Hash.default, [sampleTable]⟩

theorem sampleChain_holds (instructions : List Instruction) (price : Option Nat) :
    sampleChain.Holds (sampleParams instructions price).addressLookupTables := by
  intro table htable
  rw [List.mem_singleton.mp htable]
  rfl

theorem exists_of_isOk {ε α : Type} {x : Except ε α} (h : x.isOk = true) : ∃ a, x = .ok a := by
  cases x with
  | error e => cases h
  | ok a => exact ⟨a, rfl⟩

theorem sampleRoute (env : ProgramEnv) {instructions : List Instruction} {index : UInt8}
    (price : Option Nat) (hborrow : instructions[index.toNat]? = some sampleBorrow)
    (hrepay : sampleRepay index ∈ instructions) :
    FlashRoute env (sampleParams instructions price) index sampleBorrow :=
  ⟨.generic _ _ _ _ _ _, hborrow, sampleRepay index, hrepay, .generic _ _ _ _ _ _ _⟩

/-- Two equal borrows in a row: the reference to the second finds the first. -/
theorem referenceSurvives_second_of_two :
    ∃ tx, assemble sampleSdk (sampleParams [sampleBorrow, sampleBorrow, sampleRepay 1] none) =
        .ok tx ∧
      (MessageV0.resolve sampleChain tx)[1]? = some sampleBorrow.resolved := by
  have hroute : FlashRoute ⟨fun _ _ => (Bytes32.fill 7, 255), Bytes32.fill 8, Bytes32.fill 9⟩
      (sampleParams [sampleBorrow, sampleBorrow, sampleRepay 1] none) 1 sampleBorrow :=
    sampleRoute _ _ rfl (by simp)
  have hassembled : (assemble sampleSdk (sampleParams [sampleBorrow, sampleBorrow, sampleRepay 1]
      none)).isOk = true := by decide +kernel
  obtain ⟨tx, htx⟩ := exists_of_isOk hassembled
  refine ⟨tx, htx, (referenceSurvives_iff _ sampleSdk _
    (MessageV0.encoder_resolves MessageV0.defaultSignature) _ 1 sampleBorrow hroute tx htx
    sampleChain (sampleChain_holds _ _)).mpr ?_⟩
  exact ⟨0, rfl, rfl⟩

/-- The plain route: borrow at 0, repay naming 0.  In the transaction, with three of the
accounts in a lookup table, index 0 is the compute-unit limit and the borrow stands at 1,
or at 2 with a price. -/
theorem flash_borrow_not_at_its_index :
    let env : ProgramEnv := ⟨fun _ _ => (Bytes32.fill 7, 255), Bytes32.fill 8, Bytes32.fill 9⟩
    let params := sampleParams [sampleBorrow, sampleRepay 0]
    ∀ shifted ∈ [(none, 1), (some 1000, 2)],
      FlashRoute env (params shifted.1) 0 sampleBorrow ∧
        ∃ tx, assemble sampleSdk (params shifted.1) = .ok tx ∧
          tx.message.addressTableLookups = [⟨Bytes32.fill 20, [3, 2], [0]⟩] ∧
          (MessageV0.resolve sampleChain tx)[0]? ≠ some sampleBorrow.resolved ∧
          (MessageV0.resolve sampleChain tx)[shifted.2]? = some sampleBorrow.resolved := by
  intro env params shifted hshifted
  have hassembled : (assemble sampleSdk (params shifted.1)).isOk = true := by
    revert shifted
    decide +kernel
  have hlookups : (assemble sampleSdk (params shifted.1)).map (fun tx : MessageV0.Transaction =>
      tx.message.addressTableLookups) = .ok [⟨Bytes32.fill 20, [3, 2], [0]⟩] := by
    revert shifted
    decide +kernel
  have hplaces : ((params shifted.1).budgeted sampleSdk)[0]?.map Instruction.resolved ≠
        some sampleBorrow.resolved ∧
      ((params shifted.1).budgeted sampleSdk)[shifted.2]?.map Instruction.resolved =
        some sampleBorrow.resolved := by
    revert shifted
    decide +kernel
  obtain ⟨tx, htx⟩ := exists_of_isOk hassembled
  have hresolved := resolve_of_assemble (MessageV0.encoder_resolves MessageV0.defaultSignature)
    (sampleChain_holds _ _) htx
  rw [htx] at hlookups
  refine ⟨sampleRoute env _ rfl (by simp), tx, htx, Except.ok.inj hlookups, ?_⟩
  rw [hresolved, List.getElem?_map, List.getElem?_map]
  exact hplaces

end Gyrfalcon
