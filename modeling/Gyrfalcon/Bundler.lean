import Gyrfalcon.Core
import Gyrfalcon.Lib.LastWrite

/-!
# Bundle builder (`bundler/src/lib.rs`)

Assembly of one transaction, and the cache of lookup tables
(`bundler/src/alt_manager.rs`).  Compilation, signing and serialisation belong to
`solana-sdk`, a third-party crate: they are a parameter of the model.
-/

namespace Gyrfalcon

/-! ## The SDK -/

structure AccountMeta where
  pubkey : Pubkey
  isSigner : Bool
  isWritable : Bool
  deriving DecidableEq, Repr

/-- `AccountMeta::new`. -/
def AccountMeta.new (pubkey : Pubkey) (isSigner : Bool) : AccountMeta := ⟨pubkey, isSigner, true⟩

def AccountMeta.newReadonly (pubkey : Pubkey) (isSigner : Bool) : AccountMeta :=
  ⟨pubkey, isSigner, false⟩

structure Instruction where
  programId : Pubkey
  accounts : List AccountMeta
  data : List UInt8
  deriving DecidableEq, Repr

structure AddressLookupTableAccount where
  key : Pubkey
  addresses : List Pubkey
  deriving DecidableEq, Repr

/-- What the engine calls of `solana-sdk`, with the signing keypair applied. -/
structure SolanaSdk where
  Message : Type
  VersionedTransaction : Type
  setComputeUnitLimit : Nat → Instruction
  setComputeUnitPrice : Nat → Instruction
  transfer : Pubkey → Pubkey → Nat → Instruction
  tryCompile : Pubkey → List Instruction → List AddressLookupTableAccount → Hash →
    Except String Message
  tryNew : Message → Except String VersionedTransaction
  serialize : VersionedTransaction → Except String (List UInt8)

/-! ## Assembly -/

def maxTxBytes : Nat := 1232

inductive BundleError where
  | compileMessage (error : String)
  | sign (error : String)
  | serialize (error : String)
  | exceedsMaxSize (actual : Nat)
  deriving DecidableEq, Repr

structure BundleParams where
  instructions : List Instruction
  cuLimit : Nat
  cuPriceMicroLamports : Option Nat
  payer : Pubkey
  recentBlockhash : Hash
  addressLookupTables : List AddressLookupTableAccount
  deriving DecidableEq, Repr

/-- The instructions of the transaction: compute budget first, then the route. -/
def BundleParams.budgeted (sdk : SolanaSdk) (params : BundleParams) : List Instruction :=
  sdk.setComputeUnitLimit params.cuLimit ::
    (params.cuPriceMicroLamports.map sdk.setComputeUnitPrice).toList ++ params.instructions

/-- An oversized transaction is an error. -/
def assemble (sdk : SolanaSdk) (params : BundleParams) :
    Except BundleError sdk.VersionedTransaction := do
  let message ← (sdk.tryCompile params.payer (params.budgeted sdk) params.addressLookupTables
    params.recentBlockhash).mapError .compileMessage
  let tx ← (sdk.tryNew message).mapError .sign
  let bytes ← (sdk.serialize tx).mapError .serialize
  if maxTxBytes < bytes.length then throw (.exceedsMaxSize bytes.length)
  return tx

def toCoreBundleBytes (sdk : SolanaSdk) (tx : sdk.VersionedTransaction) :
    Except BundleError (List UInt8) :=
  (sdk.serialize tx).mapError .serialize

/-- Assembly, once its message is signed and serialised. -/
theorem assemble_of_signed {sdk : SolanaSdk} {params : BundleParams} {message : sdk.Message}
    {tx : sdk.VersionedTransaction} {bytes : List UInt8}
    (hcompile : sdk.tryCompile params.payer (params.budgeted sdk) params.addressLookupTables
      params.recentBlockhash = .ok message)
    (hsign : sdk.tryNew message = .ok tx) (hbytes : sdk.serialize tx = .ok bytes) :
    assemble sdk params =
      if maxTxBytes < bytes.length then .error (.exceedsMaxSize bytes.length) else .ok tx := by
  simp only [assemble, hcompile, hsign, hbytes, Except.mapError, bind, Except.bind]
  rfl

/-- Assembly either gets that far or ends in an error of the SDK. -/
theorem assemble_cases (sdk : SolanaSdk) (params : BundleParams) :
    (∃ message tx bytes,
      sdk.tryCompile params.payer (params.budgeted sdk) params.addressLookupTables
        params.recentBlockhash = .ok message ∧
      sdk.tryNew message = .ok tx ∧ sdk.serialize tx = .ok bytes) ∨
    ∃ e, assemble sdk params = .error e ∧ ∀ actual, e ≠ .exceedsMaxSize actual := by
  cases hcompile : sdk.tryCompile params.payer (params.budgeted sdk) params.addressLookupTables
      params.recentBlockhash with
  | error e =>
    refine Or.inr ⟨.compileMessage e, ?_, by simp⟩
    simp only [assemble, hcompile, Except.mapError, bind, Except.bind]
  | ok message =>
    cases hsign : sdk.tryNew message with
    | error e =>
      refine Or.inr ⟨.sign e, ?_, by simp⟩
      simp only [assemble, hcompile, hsign, Except.mapError, bind, Except.bind]
    | ok tx =>
      cases hbytes : sdk.serialize tx with
      | error e =>
        refine Or.inr ⟨.serialize e, ?_, by simp⟩
        simp only [assemble, hcompile, hsign, hbytes, Except.mapError, bind, Except.bind]
      | ok bytes => exact Or.inl ⟨message, tx, bytes, rfl, hsign, hbytes⟩

/-- The one way assembly ends in `ExceedsMaxSize`. -/
theorem assemble_exceedsMaxSize_iff (sdk : SolanaSdk) (params : BundleParams) (actual : Nat) :
    assemble sdk params = .error (.exceedsMaxSize actual) ↔
      ∃ message tx bytes,
        sdk.tryCompile params.payer (params.budgeted sdk) params.addressLookupTables
          params.recentBlockhash = .ok message ∧
        sdk.tryNew message = .ok tx ∧ sdk.serialize tx = .ok bytes ∧
        maxTxBytes < bytes.length ∧ bytes.length = actual := by
  constructor
  · intro h
    obtain ⟨message, tx, bytes, hcompile, hsign, hbytes⟩ | ⟨e, herror, hother⟩ :=
      assemble_cases sdk params
    · rw [assemble_of_signed hcompile hsign hbytes] at h
      split at h
      · next hsize =>
        cases h
        exact ⟨message, tx, bytes, hcompile, hsign, hbytes, hsize, rfl⟩
      · cases h
    · rw [h] at herror
      cases herror
      exact absurd rfl (hother actual)
  · rintro ⟨message, tx, bytes, hcompile, hsign, hbytes, hsize, rfl⟩
    rw [assemble_of_signed hcompile hsign hbytes, if_pos hsize]

/-- What is assembled serialises, within the size ceiling. -/
theorem toCoreBundleBytes_of_assemble {sdk : SolanaSdk} {params : BundleParams}
    {tx : sdk.VersionedTransaction} (h : assemble sdk params = .ok tx) :
    ∃ bytes, toCoreBundleBytes sdk tx = .ok bytes ∧ bytes.length ≤ maxTxBytes := by
  obtain ⟨message, tx', bytes, hcompile, hsign, hbytes⟩ | ⟨e, herror, -⟩ :=
    assemble_cases sdk params
  · rw [assemble_of_signed hcompile hsign hbytes] at h
    split at h
    · cases h
    · next hsize =>
      cases h
      exact ⟨bytes, by simp [toCoreBundleBytes, hbytes, Except.mapError], not_lt.mp hsize⟩
  · rw [h] at herror
    cases herror

/-! ## Lookup tables -/

structure AltManager where
  tables : LastWrite.HashMap Pubkey AddressLookupTableAccount

namespace AltManager

def new : AltManager := ⟨∅⟩

def registerTable (self : AltManager) (table : AddressLookupTableAccount) : AltManager :=
  ⟨self.tables.insert table.key table⟩

/-- Every registered table, in iteration order. -/
def getAllTables (self : AltManager) : List AddressLookupTableAccount :=
  self.tables.entries.map Sigma.snd

end AltManager

end Gyrfalcon
