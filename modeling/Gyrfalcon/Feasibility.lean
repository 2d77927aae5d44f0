import Gyrfalcon.MessageV0

/-!
# Route feasibility (`strategy/src/sizing.rs`)

`check_feasibility` measures a route against the transaction limits before
`assemble` builds it.  The two put different compute-budget instructions in
front of the route: sizing knows the limit only, assembly also the price.
-/

namespace Gyrfalcon

/-! ## The check -/

def maxTxCu : Nat := 1400000

inductive BindingConstraint where
  | closeFactor
  | flashDepth
  | byteLimit
  | computeBudget
  deriving DecidableEq, Repr

/-- `trait RouteFeasibilityProvider`. -/
structure RouteFeasibilityProvider where
  buildInstructions : Nat → List Instruction
  /-- The trait's default is a baseline of 250,000. -/
  estimateCu : Nat → Nat := fun _ => 250000

/-- What sizing uses of the SDK besides what assembly does. -/
structure SizingSdk extends SolanaSdk where
  numRequiredSignatures : Message → Nat
  /-- A transaction with that many default signatures. -/
  defaultSigned : Nat → Message → VersionedTransaction

namespace SizingSdk

/-- The length of a transaction whose signatures are all `Signature::default()`. -/
def measure (sdk : SizingSdk) (payer : Pubkey) (ixs : List Instruction)
    (tables : List AddressLookupTableAccount) (recentBlockhash : Hash) : Except String Nat := do
  let message ← sdk.tryCompile payer ixs tables recentBlockhash
  let bytes ← sdk.serialize (sdk.defaultSigned (sdk.numRequiredSignatures message) message)
  return bytes.length

/-- `usize::MAX` where compilation or serialisation fails. -/
def serializedLen (sdk : SizingSdk) (payer : Pubkey) (ixs : List Instruction)
    (tables : List AddressLookupTableAccount) (recentBlockhash : Hash) : Nat :=
  match sdk.measure payer ixs tables recentBlockhash with
  | .ok len => len
  | .error _ => u64Max

end SizingSdk

structure FeasibilityFit where
  usedAlt : Bool
  txBytes : Nat
  cu : Nat
  deriving DecidableEq, Repr

structure FeasibilityOverflow where
  constraint : BindingConstraint
  details : String
  deriving DecidableEq, Repr

/-- Without lookup tables first, then with all of the manager's. -/
def checkFeasibility (sdk : SizingSdk) (repayAmount : Nat) (route : RouteFeasibilityProvider)
    (altManager : Option AltManager) (payer : Pubkey) (recentBlockhash : Hash) :
    Except FeasibilityOverflow FeasibilityFit :=
  let cu := route.estimateCu repayAmount
  if maxTxCu < cu then
    .error ⟨.computeBudget, s!"Estimated CU {cu} exceeds maximum transaction budget {maxTxCu}"⟩
  else
    let ixs := sdk.setComputeUnitLimit (min cu maxTxCu) :: route.buildInstructions repayAmount
    let uncompressedLen := sdk.serializedLen payer ixs [] recentBlockhash
    let overflow : FeasibilityOverflow :=
      ⟨.byteLimit, s!"Transaction serialized size {uncompressedLen} exceeds {maxTxBytes}-byte limit"
        ++ " even with ALTs"⟩
    if uncompressedLen ≤ maxTxBytes then .ok ⟨false, uncompressedLen, cu⟩
    else
      match altManager with
      | none => .error overflow
      | some manager =>
        let tables := manager.getAllTables
        if tables.isEmpty then .error overflow
        else
          let compressedLen := sdk.serializedLen payer ixs tables recentBlockhash
          if compressedLen ≤ maxTxBytes then .ok ⟨true, compressedLen, cu⟩
          else .error overflow

/-- The manager's tables when the fit needed them, none otherwise. -/
def FeasibilityFit.tables (fit : FeasibilityFit) (altManager : Option AltManager) :
    List AddressLookupTableAccount :=
  if fit.usedAlt then (altManager.map AltManager.getAllTables).getD [] else []

section

variable (sdk : SizingSdk) (repayAmount : Nat) (route : RouteFeasibilityProvider)
variable (altManager : Option AltManager) (payer : Pubkey) (recentBlockhash : Hash)

/-- The transaction as sizing measures it. -/
def sizedInstructions : List Instruction :=
  sdk.setComputeUnitLimit (route.estimateCu repayAmount) :: route.buildInstructions repayAmount

/-- The tables sizing settles on: none where the route fits without. -/
def sizedTables : List AddressLookupTableAccount :=
  if sdk.serializedLen payer (sizedInstructions sdk repayAmount route) [] recentBlockhash ≤
      maxTxBytes then []
  else (altManager.map AltManager.getAllTables).getD []

/-- The length sizing compares with the ceiling in the end. -/
def sizedLen : Nat :=
  sdk.serializedLen payer (sizedInstructions sdk repayAmount route)
    (sizedTables sdk repayAmount route altManager payer recentBlockhash) recentBlockhash

/-- What is accepted, and with which fit. -/
theorem checkFeasibility_eq_ok_iff (fit : FeasibilityFit) :
    checkFeasibility sdk repayAmount route altManager payer recentBlockhash = .ok fit ↔
      route.estimateCu repayAmount ≤ maxTxCu ∧
      sizedLen sdk repayAmount route altManager payer recentBlockhash ≤ maxTxBytes ∧
      fit = ⟨decide (maxTxBytes < sdk.serializedLen payer
          (sizedInstructions sdk repayAmount route) [] recentBlockhash),
        sizedLen sdk repayAmount route altManager payer recentBlockhash,
        route.estimateCu repayAmount⟩ := by
  by_cases hcu : maxTxCu < route.estimateCu repayAmount
  · simp [checkFeasibility, hcu]
  · have hle := not_lt.mp hcu
    have hfold : sdk.setComputeUnitLimit (route.estimateCu repayAmount) ::
        route.buildInstructions repayAmount = sizedInstructions sdk repayAmount route := rfl
    simp only [checkFeasibility, hcu, ↓reduceIte, min_eq_left hle, hfold, hle, true_and,
      sizedLen, sizedTables]
    by_cases hplain : sdk.serializedLen payer (sizedInstructions sdk repayAmount route) []
        recentBlockhash ≤ maxTxBytes
    · simp [hplain, not_lt.mpr hplain, eq_comm]
    · simp only [hplain, ↓reduceIte]
      cases altManager with
      | none => simp [hplain]
      | some manager =>
        simp only [Option.map_some, Option.getD_some]
        by_cases hempty : manager.getAllTables = []
        · simp [hempty, hplain]
        · simp only [List.isEmpty_iff, hempty, ↓reduceIte]
          split
          · next hfits => simp [hfits, not_le.mp hplain, eq_comm]
          · next hfits => simp [hfits]

/-- The tables handed to assembly are the ones sizing measured with. -/
theorem tables_of_checkFeasibility {fit : FeasibilityFit}
    (h : checkFeasibility sdk repayAmount route altManager payer recentBlockhash = .ok fit) :
    fit.tables altManager =
      sizedTables sdk repayAmount route altManager payer recentBlockhash := by
  obtain ⟨-, -, rfl⟩ := (checkFeasibility_eq_ok_iff _ _ _ _ _ _ _).mp h
  unfold FeasibilityFit.tables sizedTables
  by_cases hplain : sdk.serializedLen payer (sizedInstructions sdk repayAmount route) []
      recentBlockhash ≤ maxTxBytes
  · simp [hplain]
  · simp [hplain, not_le.mp hplain]

end

/-! ## The wire format -/

/-- Bytes of a compact-u16 length prefix. -/
def compactU16Len (n : Nat) : Nat := if n < 0x80 then 1 else if n < 0x4000 then 2 else 3

/-- What `setComputeUnitPrice` adds to a transaction that sets a limit already:
program index, empty account list, data length and nine bytes of data, and a
byte more where it is instruction number 128. -/
def priceBytes (ixs : List Instruction) : Nat :=
  12 + (compactU16Len (ixs.length + 2) - compactU16Len (ixs.length + 1))

/-- No account but the payer signs. -/
def SoleSigner (payer : Pubkey) (ixs : List Instruction) : Prop :=
  ∀ ix ∈ ixs, ∀ account ∈ ix.accounts, account.isSigner = true → account.pubkey = payer

/-- What sizing and assembly rely on: compute-budget instructions name no
account, a payer who is the only signer can sign, a signature takes the same
64 bytes as a default one, and the price instruction has its documented size. -/
structure SizingSdk.WireFormat (sdk : SizingSdk) (payer : Pubkey) : Prop where
  limit_accounts : ∀ units, (sdk.setComputeUnitLimit units).accounts = []
  price_accounts : ∀ price, (sdk.setComputeUnitPrice price).accounts = []
  signed_length : ∀ ixs tables recentBlockhash message, SoleSigner payer ixs →
    sdk.tryCompile payer ixs tables recentBlockhash = .ok message →
    ∃ tx, sdk.tryNew message = .ok tx ∧
      (sdk.serialize tx).map List.length =
        (sdk.serialize (sdk.defaultSigned (sdk.numRequiredSignatures message) message)).map
          List.length
  price_length : ∀ units price ixs tables recentBlockhash len,
    sdk.measure payer (sdk.setComputeUnitLimit units :: ixs) tables recentBlockhash = .ok len →
    len ≤ maxTxBytes →
    sdk.measure payer (sdk.setComputeUnitLimit units :: sdk.setComputeUnitPrice price :: ixs) tables
      recentBlockhash = .ok (len + priceBytes ixs)

variable {sdk : SizingSdk} {payer : Pubkey}

theorem SoleSigner.cons {ix : Instruction} {ixs : List Instruction} (hix : ix.accounts = [])
    (h : SoleSigner payer ixs) : SoleSigner payer (ix :: ixs) := by
  intro ix' hmem account haccount
  rcases List.mem_cons.mp hmem with rfl | hmem
  · simp [hix] at haccount
  · exact h ix' hmem account haccount

/-- What assembly prepends needs no signer of its own. -/
theorem SizingSdk.WireFormat.soleSigner_budgeted (wire : sdk.WireFormat payer)
    {params : BundleParams} (h : SoleSigner payer params.instructions) :
    SoleSigner payer (params.budgeted sdk.toSolanaSdk) := by
  unfold BundleParams.budgeted
  cases params.cuPriceMicroLamports with
  | none => exact h.cons (wire.limit_accounts _)
  | some price => exact (h.cons (wire.price_accounts price)).cons (wire.limit_accounts _)

/-- Assembly and the measure agree on one instruction list. -/
theorem SizingSdk.WireFormat.assemble_exceeds_iff (wire : sdk.WireFormat payer)
    {params : BundleParams} (hpayer : params.payer = payer)
    (h : SoleSigner payer params.instructions) (actual : Nat) :
    assemble sdk.toSolanaSdk params = .error (.exceedsMaxSize actual) ↔
      sdk.measure payer (params.budgeted sdk.toSolanaSdk) params.addressLookupTables
        params.recentBlockhash = .ok actual ∧ maxTxBytes < actual := by
  rw [assemble_exceedsMaxSize_iff, hpayer]
  cases hcompile : sdk.tryCompile payer (params.budgeted sdk.toSolanaSdk)
      params.addressLookupTables params.recentBlockhash with
  | error e => simp [SizingSdk.measure, hcompile, bind, Except.bind]
  | ok message =>
    obtain ⟨tx, hsign, hlen⟩ := wire.signed_length _ _ _ _ (wire.soleSigner_budgeted h) hcompile
    have hmeasure : sdk.measure payer (params.budgeted sdk.toSolanaSdk)
        params.addressLookupTables params.recentBlockhash =
          (sdk.serialize tx).map List.length := by
      rw [hlen]
      simp only [SizingSdk.measure, hcompile, bind, Except.bind]
      cases sdk.serialize (sdk.defaultSigned (sdk.numRequiredSignatures message) message) <;> rfl
    rw [hmeasure]
    cases hbytes : sdk.serialize tx with
    | error e => simp [hsign, hbytes, Except.map]
    | ok bytes =>
      simp only [Except.ok.injEq, hsign, hbytes, Except.map, exists_eq_left', exists_and_left]
      constructor
      · rintro ⟨hsize, rfl⟩
        exact ⟨rfl, hsize⟩
      · rintro ⟨rfl, hsize⟩
        exact ⟨hsize, rfl⟩

/-! ## The v0 encoder -/

namespace MessageV0

/-- The compute-budget and system instructions as the SDK encodes them; every
signature is the given one. -/
def encoder (signature : Signature) : SizingSdk where
  Message := Message
  VersionedTransaction := Transaction
  setComputeUnitLimit units := ⟨computeBudgetProgramId, [], 2 :: ByteCodec.leBytes 4 units⟩
  setComputeUnitPrice price := ⟨computeBudgetProgramId, [], 3 :: ByteCodec.leBytes 8 price⟩
  transfer source target lamports :=
    ⟨Pubkey.default, [AccountMeta.new source true, AccountMeta.new target false],
      [2, 0, 0, 0] ++ ByteCodec.leBytes 8 lamports⟩
  tryCompile := tryCompile
  tryNew message :=
    if message.numRequiredSignatures = 1 then .ok ⟨[signature], message⟩
    else .error "not enough signers"
  serialize tx := .ok (serialize tx)
  numRequiredSignatures := Message.numRequiredSignatures
  defaultSigned n message := ⟨List.replicate n defaultSignature, message⟩

theorem flagged_eq_false {flag : AccountMeta → Bool} {ixs : List Instruction} {key : Pubkey}
    (h : ∀ ix ∈ ixs, ∀ account ∈ ix.accounts, flag account = true → account.pubkey ≠ key) :
    flagged flag ixs key = false := by
  unfold flagged
  rw [List.any_eq_false]
  intro ix hix hany
  obtain ⟨account, haccount, hflag⟩ := List.any_eq_true.mp hany
  simp only [Bool.and_eq_true, decide_eq_true_eq] at hflag
  exact h ix hix account haccount hflag.2 hflag.1

/-- With the payer as the only signer there is no other signing key. -/
theorem keyClass_signer_eq_nil {payer : Pubkey} {ixs : List Instruction} {keys : List Pubkey}
    (h : SoleSigner payer ixs) (hkeys : payer ∉ keys) (writable : Bool) :
    keyClass ixs keys true writable = [] := by
  unfold keyClass
  rw [List.filter_eq_nil_iff]
  intro key hkey
  have hunsigned : flagged AccountMeta.isSigner ixs key = false := by
    refine flagged_eq_false fun ix hix account haccount hsigner hpubkey => hkeys ?_
    rw [← h ix hix account haccount hsigner, hpubkey]
    exact hkey
  simp [hunsigned]

/-- A second compute-budget instruction brings no new key. -/
theorem otherKeys_second {a b : Instruction} (ha : a.accounts = []) (hb : b.accounts = [])
    (hprogram : a.programId = b.programId) (payer : Pubkey) (ixs : List Instruction) :
    otherKeys payer (a :: b :: ixs) = otherKeys payer (a :: ixs) := by
  unfold otherKeys
  simp only [List.flatMap_cons, ha, hb, hprogram, List.map_nil, List.cons_append,
    List.nil_append]
  rw [List.dedup_cons_of_mem List.mem_cons_self]

/-- Nor does it change what the keys are used for. -/
theorem flagged_second {a b : Instruction} (hb : b.accounts = []) (flag : AccountMeta → Bool)
    (ixs : List Instruction) : flagged flag (a :: b :: ixs) = flagged flag (a :: ixs) := by
  funext key
  simp [flagged, hb]

theorem invoked_second {a b : Instruction} (hprogram : a.programId = b.programId)
    (ixs : List Instruction) : invoked (a :: b :: ixs) = invoked (a :: ixs) := by
  funext key
  simp [invoked, hprogram]

theorem length_flatMap_of_width {α : Type} {f : α → List UInt8} {width : Nat}
    (h : ∀ x, (f x).length = width) (xs : List α) :
    (xs.flatMap f).length = width * xs.length := by
  induction xs with
  | nil => rfl
  | cons x xs ih =>
    simp only [List.flatMap_cons, List.length_append, ih, h, List.length_cons]
    rw [Nat.mul_succ, Nat.add_comm]

@[simp] theorem length_compactU16 (n : Nat) : (compactU16 n).length = compactU16Len n := by
  unfold compactU16 compactU16Len
  split
  · rfl
  · split <;> rfl

theorem length_serialize (tx : Transaction) :
    (serialize tx).length = compactU16Len tx.signatures.length + 64 * tx.signatures.length + 4 +
      compactU16Len tx.message.accountKeys.length + 32 * tx.message.accountKeys.length + 32 +
      compactU16Len tx.message.instructions.length +
      (tx.message.instructions.map fun ix => ix.serialize.length).sum +
      compactU16Len tx.message.addressTableLookups.length +
      (tx.message.addressTableLookups.map fun lookup => lookup.serialize.length).sum := by
  simp only [serialize, List.length_append, length_compactU16,
    length_flatMap_of_width fun signature : Signature => signature.2,
    length_flatMap_of_width Bytes32.length_eq, List.length_flatMap,
    tx.message.recentBlockhash.length_eq, List.length_cons, List.length_nil]

theorem tryCompile_second (a b : Instruction) (ha : a.accounts = []) (hb : b.accounts = [])
    (hprogram : a.programId = b.programId) {payer : Pubkey} {ixs : List Instruction}
    {tables : List AddressLookupTableAccount} {recentBlockhash : Hash} {message : Message}
    (h : tryCompile payer (a :: ixs) tables recentBlockhash = .ok message) :
    ∃ keys, message.instructions = (a :: ixs).map (compileInstruction keys) ∧
      tryCompile payer (a :: b :: ixs) tables recentBlockhash =
        .ok { message with instructions := (a :: b :: ixs).map (compileInstruction keys) } := by
  have hloadable : loadable (a :: b :: ixs) = loadable (a :: ixs) := by
    unfold loadable
    rw [flagged_second hb, flagged_second hb, invoked_second hprogram]
  have hclass : keyClass (a :: b :: ixs) = keyClass (a :: ixs) := by
    unfold keyClass
    rw [flagged_second hb, flagged_second hb]
  unfold tryCompile at h ⊢
  rw [otherKeys_second ha hb hprogram, hloadable, hclass]
  cases hextract : extractTableLookups (loadable (a :: ixs)) tables
      (otherKeys payer (a :: ixs)) with
  | error e => simp [hextract, bind, Except.bind] at h
  | ok extracted =>
    simp only [hextract, bind, Except.bind] at h ⊢
    split at h
    · cases h
    · next hfits =>
      cases h
      exact ⟨_, rfl, if_neg hfits⟩

/-- The length of the transaction signed by nobody. -/
def unsignedLength (message : Message) : Nat :=
  (serialize ⟨List.replicate message.numRequiredSignatures defaultSignature, message⟩).length

theorem measure_encoder (signature : Signature) (payer : Pubkey) (ixs : List Instruction)
    (tables : List AddressLookupTableAccount) (recentBlockhash : Hash) :
    (encoder signature).measure payer ixs tables recentBlockhash =
      (tryCompile payer ixs tables recentBlockhash).map unsignedLength := by
  have hcompile : (encoder signature).tryCompile = tryCompile := rfl
  rw [SizingSdk.measure, hcompile]
  cases tryCompile payer ixs tables recentBlockhash with
  | error message => rfl
  | ok message => rfl

theorem length_signed (signature : Signature) {message : Message}
    (h : message.numRequiredSignatures = 1) :
    (serialize ⟨[signature], message⟩).length = unsignedLength message := by
  rw [unsignedLength, h, length_serialize, length_serialize]
  rfl

/-- The second of two instructions in front takes its own bytes, and perhaps
one more for the count. -/
theorem unsignedLength_second {a b : Instruction} {ixs : List Instruction} {keys : List Pubkey}
    {message : Message} (hb : (compileInstruction keys b).serialize.length = 12)
    (h : message.instructions = (a :: ixs).map (compileInstruction keys)) :
    unsignedLength { message with
        instructions := (a :: b :: ixs).map (compileInstruction keys) } =
      unsignedLength message + priceBytes ixs := by
  have hmono : compactU16Len (ixs.length + 1) ≤ compactU16Len (ixs.length + 2) := by
    unfold compactU16Len
    split_ifs <;> omega
  unfold unsignedLength
  simp only [length_serialize, h, List.map_cons, List.length_cons, List.length_map, List.sum_cons,
    hb, priceBytes, Nat.add_assoc, Nat.reduceAdd]
  omega

/-- The encoder has the wire format sizing and assembly rely on. -/
theorem encoder_wireFormat (signature : Signature) (payer : Pubkey) :
    (encoder signature).WireFormat payer where
  limit_accounts _ := rfl
  price_accounts _ := rfl
  signed_length ixs tables recentBlockhash message hsole hcompile := by
    have hcompile : tryCompile payer ixs tables recentBlockhash = .ok message := hcompile
    obtain ⟨lookups, keys, hextract, -, -, -, hsignatures, -⟩ := tryCompile_eq_ok hcompile
    have hpayer : payer ∉ keys := fun hmem =>
      payer_notMem_otherKeys payer ixs ((extracts_of_tables hextract).subset hmem)
    have hone : Message.numRequiredSignatures message = 1 := by
      rw [hsignatures, keyClass_signer_eq_nil hsole hpayer, keyClass_signer_eq_nil hsole hpayer]
      rfl
    exact ⟨⟨[signature], message⟩, if_pos hone, congrArg Except.ok (length_signed signature hone)⟩
  price_length units price ixs tables recentBlockhash len hmeasure _ := by
    rw [measure_encoder] at hmeasure ⊢
    cases hcompile : tryCompile payer ((encoder signature).setComputeUnitLimit units :: ixs) tables
        recentBlockhash with
    | error e =>
      rw [hcompile] at hmeasure
      cases hmeasure
    | ok message =>
      rw [hcompile] at hmeasure
      cases hmeasure
      obtain ⟨keys, hinstructions, hsecond⟩ := tryCompile_second
        ((encoder signature).setComputeUnitLimit units)
        ((encoder signature).setComputeUnitPrice price) rfl rfl rfl hcompile
      rw [hsecond]
      refine congrArg Except.ok (unsignedLength_second ?_ hinstructions)
      simp [compileInstruction, CompiledInstruction.serialize, encoder, compactU16Len]

end MessageV0

/-! ## Sizing and assembly -/

/-- The bundle that follows an accepted size. -/
def bundleOf (repayAmount : Nat) (route : RouteFeasibilityProvider)
    (altManager : Option AltManager) (payer : Pubkey) (recentBlockhash : Hash)
    (cuPriceMicroLamports : Option Nat) (fit : FeasibilityFit) : BundleParams where
  instructions := route.buildInstructions repayAmount
  cuLimit := route.estimateCu repayAmount
  cuPriceMicroLamports
  payer
  recentBlockhash
  addressLookupTables := fit.tables altManager

/-- What sizing accepts, assembly does not find too large. -/
def SizingAgrees (sdk : SizingSdk) (repayAmount : Nat) (route : RouteFeasibilityProvider)
    (altManager : Option AltManager) (payer : Pubkey) (recentBlockhash : Hash)
    (cuPriceMicroLamports : Option Nat) : Prop :=
  ∀ fit, checkFeasibility sdk repayAmount route altManager payer recentBlockhash = .ok fit →
    ∀ actual, assemble sdk.toSolanaSdk (bundleOf repayAmount route altManager payer recentBlockhash
      cuPriceMicroLamports fit) ≠ .error (.exceedsMaxSize actual)

/-- A length within the ceiling is a measured one. -/
theorem measure_of_serializedLen_le {ixs : List Instruction}
    {tables : List AddressLookupTableAccount} {recentBlockhash : Hash}
    (h : sdk.serializedLen payer ixs tables recentBlockhash ≤ maxTxBytes) :
    sdk.measure payer ixs tables recentBlockhash =
      .ok (sdk.serializedLen payer ixs tables recentBlockhash) := by
  unfold SizingSdk.serializedLen at h ⊢
  cases hmeasure : sdk.measure payer ixs tables recentBlockhash with
  | error e =>
    rw [hmeasure] at h
    exact absurd (show u64Max ≤ maxTxBytes from h) (by decide)
  | ok len => rfl

/-- Assembly measures what sizing measured, and the price instruction. -/
theorem measure_bundleOf {repayAmount : Nat} {route : RouteFeasibilityProvider}
    {altManager : Option AltManager} {recentBlockhash : Hash} {fit : FeasibilityFit}
    (wire : sdk.WireFormat payer) (cuPriceMicroLamports : Option Nat)
    (h : checkFeasibility sdk repayAmount route altManager payer recentBlockhash = .ok fit) :
    let params :=
      bundleOf repayAmount route altManager payer recentBlockhash cuPriceMicroLamports fit
    sdk.measure payer (params.budgeted sdk.toSolanaSdk) params.addressLookupTables
        params.recentBlockhash =
      .ok (sizedLen sdk repayAmount route altManager payer recentBlockhash +
        if cuPriceMicroLamports.isSome then priceBytes (route.buildInstructions repayAmount)
        else 0) := by
  intro params
  obtain ⟨-, hfits, -⟩ := (checkFeasibility_eq_ok_iff _ _ _ _ _ _ _).mp h
  have htables : params.addressLookupTables =
      sizedTables sdk repayAmount route altManager payer recentBlockhash :=
    tables_of_checkFeasibility _ _ _ _ _ _ h
  have hsized := measure_of_serializedLen_le hfits
  rw [htables]
  cases cuPriceMicroLamports with
  | none => exact hsized
  | some price => exact wire.price_length _ price _ _ _ _ hsized hfits

/-- **When sizing and assembly agree.**  Without a compute-unit price, always;
with one, if and only if the size is not one that fits with less than the
price instruction's bytes to spare. -/
theorem sizingAgrees_iff (sdk : SizingSdk) (repayAmount : Nat) (route : RouteFeasibilityProvider)
    (altManager : Option AltManager) (payer : Pubkey) (recentBlockhash : Hash)
    (cuPriceMicroLamports : Option Nat) (wire : sdk.WireFormat payer)
    (hsole : SoleSigner payer (route.buildInstructions repayAmount)) :
    SizingAgrees sdk repayAmount route altManager payer recentBlockhash cuPriceMicroLamports ↔
      (cuPriceMicroLamports.isSome → route.estimateCu repayAmount ≤ maxTxCu →
        sizedLen sdk repayAmount route altManager payer recentBlockhash ≤ maxTxBytes →
        sizedLen sdk repayAmount route altManager payer recentBlockhash +
          priceBytes (route.buildInstructions repayAmount) ≤ maxTxBytes) := by
  constructor
  · intro hagrees hprice hcu hfits
    by_contra hroom
    have haccepted := (checkFeasibility_eq_ok_iff sdk repayAmount route altManager payer
      recentBlockhash _).mpr ⟨hcu, hfits, rfl⟩
    refine hagrees _ haccepted _ ((wire.assemble_exceeds_iff rfl hsole _).mpr
      ⟨measure_bundleOf wire cuPriceMicroLamports haccepted, ?_⟩)
    simpa [hprice] using hroom
  · intro hroom fit haccepted actual hexceeds
    obtain ⟨hcu, hfits, -⟩ := (checkFeasibility_eq_ok_iff _ _ _ _ _ _ _).mp haccepted
    obtain ⟨hmeasure, hlt⟩ := (wire.assemble_exceeds_iff rfl hsole _).mp hexceeds
    have hactual := hmeasure.symm.trans (measure_bundleOf wire cuPriceMicroLamports haccepted)
    simp only [Except.ok.injEq] at hactual
    by_cases hprice : cuPriceMicroLamports.isSome
    · have := hroom hprice hcu hfits
      simp only [hprice, ↓reduceIte] at hactual
      omega
    · simp only [hprice, Bool.false_eq_true, ↓reduceIte] at hactual
      omega

/-- A route of one instruction that signs with the payer and carries `bytes`
bytes of data. -/
def singleRoute (payer : Pubkey) (bytes : Nat) : RouteFeasibilityProvider where
  buildInstructions _ :=
    [⟨kaminoProgramId, [AccountMeta.new payer true], List.replicate bytes 0⟩]

theorem singleRoute_soleSigner (payer : Pubkey) (bytes repayAmount : Nat) :
    SoleSigner payer ((singleRoute payer bytes).buildInstructions repayAmount) := by
  intro ix hix account haccount _
  obtain rfl := List.mem_singleton.mp hix
  obtain rfl := List.mem_singleton.mp haccount
  rfl

/-- The condition is met by a route with room to spare. -/
theorem sizingAgrees_iff_single :
    SoleSigner (Bytes32.fill 1) ((singleRoute (Bytes32.fill 1) 100).buildInstructions 5) ∧
      SizingAgrees (MessageV0.encoder MessageV0.defaultSignature) 5
        (singleRoute (Bytes32.fill 1) 100)
        none (Bytes32.fill 1) Hash.default (some 1000) := by
  refine ⟨singleRoute_soleSigner _ _ _, ?_⟩
  rw [sizingAgrees_iff _ _ _ _ _ _ _ (MessageV0.encoder_wireFormat _ _)
    (singleRoute_soleSigner _ _ _)]
  intro _ _ _
  decide +kernel

/-- 1232 bytes exactly without a price: sizing accepts what assembly, with a
price to put in, finds 12 bytes too large. -/
theorem fits_then_exceeds :
    let payer := Bytes32.fill 1
    let sdk := MessageV0.encoder MessageV0.defaultSignature
    let route := singleRoute payer 1019
    sdk.WireFormat payer ∧ SoleSigner payer (route.buildInstructions 5) ∧
      ∃ fit, checkFeasibility sdk 5 route none payer Hash.default = .ok fit ∧
        fit.txBytes = 1232 ∧
        assemble sdk.toSolanaSdk (bundleOf 5 route none payer Hash.default (some 1000) fit) =
          .error (.exceedsMaxSize 1244) := by
  intro payer sdk route
  have hfit : checkFeasibility sdk 5 route none payer Hash.default = .ok ⟨false, 1232, 250000⟩ := by
    decide +kernel
  have wire : sdk.WireFormat payer := MessageV0.encoder_wireFormat _ _
  have hsole := singleRoute_soleSigner payer 1019 5
  refine ⟨wire, hsole, _, hfit, rfl, (wire.assemble_exceeds_iff rfl hsole _).mpr ⟨?_, ?_⟩⟩
  · decide +kernel
  · decide

end Gyrfalcon
