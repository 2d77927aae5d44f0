import Gyrfalcon.Bundler
import Gyrfalcon.Lib.ByteCodec
import Mathlib.Data.List.Dedup
import Mathlib.Data.List.Sort

/-!
# Version-0 messages

`solana-sdk` is a parameter of the model.  This is the encoder it stands for:
`v0::Message::try_compile` with its lookup tables, and the bytes of a signed
transaction.  The keys that neither sign nor are invoked leave the message where
a table holds them, and an index into the table takes their place; the runtime
reads the table from the chain and puts the instructions together again
(`resolve_of_tryCompile`).
-/

namespace Gyrfalcon

/-! ## Instructions of a transaction -/

/-- An instruction as the runtime sees it: program, account keys, data. -/
structure ResolvedInstruction where
  programId : Pubkey
  accounts : List Pubkey
  data : List UInt8
  deriving DecidableEq, Repr

def Instruction.resolved (instruction : Instruction) : ResolvedInstruction :=
  ⟨instruction.programId, instruction.accounts.map AccountMeta.pubkey, instruction.data⟩

/-- The addresses of every lookup table on the chain. -/
abbrev Chain := Pubkey → List Pubkey

/-- The tables handed to the compiler are those on the chain. -/
def Chain.Holds (chain : Chain) (tables : List AddressLookupTableAccount) : Prop :=
  ∀ table ∈ tables, chain table.key = table.addresses

namespace MessageV0

/-- `ComputeBudget111111111111111111111111111111`. -/
def computeBudgetProgramId : Pubkey :=
  ⟨[3, 6, 70, 111, 229, 33, 23, 50, 255, 236, 173, 186, 114, 195, 155, 231,
    188, 140, 229, 187, 197, 247, 18, 107, 44, 67, 155, 58, 64, 0, 0, 0], rfl⟩

/-! ## Keys -/

/-- Some instruction gives `key` the flag. -/
def flagged (flag : AccountMeta → Bool) (ixs : List Instruction) (key : Pubkey) : Bool :=
  ixs.any fun ix => ix.accounts.any fun account => account.pubkey = key && flag account

/-- Some instruction runs the program `key`. -/
def invoked (ixs : List Instruction) (key : Pubkey) : Bool := ixs.any fun ix => ix.programId = key

/-- The keys an instruction names besides the payer, in key order. -/
def otherKeys (payer : Pubkey) (ixs : List Instruction) : List Pubkey :=
  ((ixs.flatMap fun ix => ix.programId :: ix.accounts.map AccountMeta.pubkey).dedup.filter
    fun key => key ≠ payer).insertionSort fun a b => a.bytes ≤ b.bytes

/-- One class of keys: signers or not, writable or not. -/
def keyClass (ixs : List Instruction) (keys : List Pubkey) (signer writable : Bool) :
    List Pubkey :=
  keys.filter fun key => flagged AccountMeta.isSigner ixs key == signer &&
    flagged AccountMeta.isWritable ixs key == writable

/-- Keys that may come from a table. -/
def loadable (ixs : List Instruction) (writable : Bool) (key : Pubkey) : Bool :=
  !flagged AccountMeta.isSigner ixs key && !invoked ixs key &&
    flagged AccountMeta.isWritable ixs key == writable

/-! ## Lookup tables -/

structure MessageAddressTableLookup where
  accountKey : Pubkey
  writableIndexes : List UInt8
  readonlyIndexes : List UInt8
  deriving DecidableEq, Repr

structure LoadedAddresses where
  writable : List Pubkey
  readonly : List Pubkey
  deriving DecidableEq, Repr

/-- The keys of a kind that a table holds, their indexes in it, and the keys left. -/
def tryDrainKeysFoundInLookupTable (addresses : List Pubkey) (kind : Pubkey → Bool)
    (keys : List Pubkey) : Except String (List UInt8 × List Pubkey × List Pubkey) :=
  let drained := keys.filter fun key => kind key && addresses.contains key
  if drained.any fun key => 256 ≤ addresses.idxOf key then
    .error "address lookup table index overflowed during compilation"
  else .ok (drained.map fun key => UInt8.ofNat (addresses.idxOf key), drained,
    keys.filter fun key => !drained.contains key)

/-- No lookup for a table that holds none of the keys. -/
def tryExtractTableLookup (kind : Bool → Pubkey → Bool) (table : AddressLookupTableAccount)
    (keys : List Pubkey) :
    Except String (List (MessageAddressTableLookup × LoadedAddresses) × List Pubkey) := do
  let (writableIndexes, writable, keys) ←
    tryDrainKeysFoundInLookupTable table.addresses (kind true) keys
  let (readonlyIndexes, readonly, keys) ←
    tryDrainKeysFoundInLookupTable table.addresses (kind false) keys
  if writableIndexes = [] ∧ readonlyIndexes = [] then return ([], keys)
  else return ([(⟨table.key, writableIndexes, readonlyIndexes⟩, ⟨writable, readonly⟩)], keys)

def extractTableLookups (kind : Bool → Pubkey → Bool) : List AddressLookupTableAccount →
    List Pubkey → Except String (List (MessageAddressTableLookup × LoadedAddresses) × List Pubkey)
  | [], keys => return ([], keys)
  | table :: tables, keys => do
    let (lookups, keys) ← tryExtractTableLookup kind table keys
    let (rest, keys) ← extractTableLookups kind tables keys
    return (lookups ++ rest, keys)

/-! ## Messages -/

structure CompiledInstruction where
  programIdIndex : UInt8
  accounts : List UInt8
  data : List UInt8
  deriving DecidableEq, Repr

structure Message where
  numRequiredSignatures : Nat
  numReadonlySignedAccounts : Nat
  numReadonlyUnsignedAccounts : Nat
  accountKeys : List Pubkey
  recentBlockhash : Hash
  instructions : List CompiledInstruction
  addressTableLookups : List MessageAddressTableLookup
  deriving DecidableEq, Repr

/-- All keys in index order: those of the message, then what the tables load. -/
def allKeys (accountKeys : List Pubkey) (loaded : List LoadedAddresses) : List Pubkey :=
  accountKeys ++ loaded.flatMap LoadedAddresses.writable ++
    loaded.flatMap LoadedAddresses.readonly

def compileInstruction (keys : List Pubkey) (ix : Instruction) : CompiledInstruction where
  programIdIndex := UInt8.ofNat (keys.idxOf ix.programId)
  accounts := ix.accounts.map fun account => UInt8.ofNat (keys.idxOf account.pubkey)
  data := ix.data

/-- Writable signers first, the payer before them, and read-only keys last. -/
def tryCompile (payer : Pubkey) (ixs : List Instruction)
    (tables : List AddressLookupTableAccount) (recentBlockhash : Hash) :
    Except String Message := do
  let (lookups, keys) ← extractTableLookups (loadable ixs) tables (otherKeys payer ixs)
  let writableSigners := keyClass ixs keys true true
  let readonlySigners := keyClass ixs keys true false
  let readonly := keyClass ixs keys false false
  let accountKeys := payer :: writableSigners ++ readonlySigners ++ keyClass ixs keys false true ++
    readonly
  let all := allKeys accountKeys (lookups.map Prod.snd)
  if 255 < 1 + writableSigners.length + readonlySigners.length ∨ 255 < readonly.length ∨
      256 < all.length then throw "account index overflowed during compilation"
  else return {
    numRequiredSignatures := 1 + writableSigners.length + readonlySigners.length
    numReadonlySignedAccounts := readonlySigners.length
    numReadonlyUnsignedAccounts := readonly.length
    accountKeys
    recentBlockhash
    instructions := ixs.map (compileInstruction all)
    addressTableLookups := lookups.map Prod.fst }

/-! ## The wire format -/

/-- A compact-u16 length prefix. -/
def compactU16 (n : Nat) : List UInt8 :=
  if n < 0x80 then [UInt8.ofNat n]
  else if n < 0x4000 then [UInt8.ofNat (n % 128 + 128), UInt8.ofNat (n / 128)]
  else [UInt8.ofNat (n % 128 + 128), UInt8.ofNat (n / 128 % 128 + 128), UInt8.ofNat (n / 16384)]

def CompiledInstruction.serialize (ix : CompiledInstruction) : List UInt8 :=
  ix.programIdIndex :: compactU16 ix.accounts.length ++ ix.accounts ++
    compactU16 ix.data.length ++ ix.data

def MessageAddressTableLookup.serialize (lookup : MessageAddressTableLookup) : List UInt8 :=
  lookup.accountKey.bytes ++ compactU16 lookup.writableIndexes.length ++ lookup.writableIndexes ++
    compactU16 lookup.readonlyIndexes.length ++ lookup.readonlyIndexes

abbrev Signature := { bytes : List UInt8 // bytes.length = 64 }

/-- `Signature::default()`. -/
def defaultSignature : Signature := ⟨List.replicate 64 0, List.length_replicate⟩

structure Transaction where
  signatures : List Signature
  message : Message
  deriving DecidableEq

def serialize (tx : Transaction) : List UInt8 :=
  compactU16 tx.signatures.length ++ tx.signatures.flatMap Subtype.val ++
    [0x80, UInt8.ofNat tx.message.numRequiredSignatures,
      UInt8.ofNat tx.message.numReadonlySignedAccounts,
      UInt8.ofNat tx.message.numReadonlyUnsignedAccounts] ++
    compactU16 tx.message.accountKeys.length ++ tx.message.accountKeys.flatMap Bytes32.bytes ++
    tx.message.recentBlockhash.bytes ++
    compactU16 tx.message.instructions.length ++
    tx.message.instructions.flatMap CompiledInstruction.serialize ++
    compactU16 tx.message.addressTableLookups.length ++
    tx.message.addressTableLookups.flatMap MessageAddressTableLookup.serialize

/-! ## What the runtime reads -/

def keyAt (keys : List Pubkey) (index : UInt8) : Pubkey := keys.getD index.toNat Pubkey.default

/-- The addresses a lookup stands for. -/
def load (chain : Chain) (lookup : MessageAddressTableLookup) : LoadedAddresses where
  writable := lookup.writableIndexes.map (keyAt (chain lookup.accountKey))
  readonly := lookup.readonlyIndexes.map (keyAt (chain lookup.accountKey))

def CompiledInstruction.resolve (keys : List Pubkey) (ix : CompiledInstruction) :
    ResolvedInstruction :=
  ⟨keyAt keys ix.programIdIndex, ix.accounts.map (keyAt keys), ix.data⟩

def Message.resolve (chain : Chain) (message : Message) : List ResolvedInstruction :=
  message.instructions.map (CompiledInstruction.resolve
    (allKeys message.accountKeys (message.addressTableLookups.map (load chain))))

/-! ### Lookups load what was drained -/

section Extracted

variable {kind : Bool → Pubkey → Bool} {addresses keys : List Pubkey}

theorem keyAt_idxOf {key : Pubkey} (hmem : key ∈ keys) (hlt : keys.idxOf key < 256) :
    keyAt keys (UInt8.ofNat (keys.idxOf key)) = key := by
  have hindex : (UInt8.ofNat (keys.idxOf key)).toNat = keys.idxOf key := by
    rw [UInt8.toNat_ofNat', Nat.mod_eq_of_lt hlt]
  rw [keyAt, hindex, List.getD_eq_getElem?_getD,
    List.getElem?_eq_getElem (List.idxOf_lt_length_of_mem hmem), List.getElem_idxOf]
  rfl

/-- What draining a table does to the keys. -/
theorem drain_eq_ok {p : Pubkey → Bool} {indexes : List UInt8} {drained rest : List Pubkey}
    (h : tryDrainKeysFoundInLookupTable addresses p keys = .ok (indexes, drained, rest)) :
    indexes.map (keyAt addresses) = drained ∧ indexes.length = drained.length ∧ rest ⊆ keys ∧
      ∀ key ∈ keys, key ∈ drained ∨ key ∈ rest := by
  unfold tryDrainKeysFoundInLookupTable at h
  simp only at h
  split at h
  · cases h
  · next hfits =>
    simp only [Except.ok.injEq, Prod.mk.injEq] at h
    obtain ⟨rfl, rfl, rfl⟩ := h
    refine ⟨?_, List.length_map _, fun _ => List.mem_of_mem_filter, fun key hkey => ?_⟩
    · rw [List.map_map]
      conv_rhs => rw [← List.map_id (keys.filter _)]
      refine List.map_congr_left fun key hkey => ?_
      have hlt : addresses.idxOf key < 256 := by
        by_contra hle
        exact hfits (List.any_eq_true.mpr ⟨key, hkey, by simpa using hle⟩)
      have hmem : key ∈ addresses := by
        have := (List.mem_filter.mp hkey).2
        simp only [Bool.and_eq_true, List.contains_iff_mem] at this
        exact this.2
      exact keyAt_idxOf hmem hlt
    · by_cases hdrained : key ∈ keys.filter fun key => p key && addresses.contains key
      · exact Or.inl hdrained
      · refine Or.inr (List.mem_filter.mpr ⟨hkey, ?_⟩)
        rw [Bool.not_eq_true', ← Bool.not_eq_true, List.contains_iff_mem]
        exact hdrained

/-- What the lookups load. -/
def Loaded (lookups : List (MessageAddressTableLookup × LoadedAddresses)) (key : Pubkey) : Prop :=
  ∃ entry ∈ lookups, key ∈ entry.2.writable ∨ key ∈ entry.2.readonly

/-- Lookups that load what was drained from their tables, and keys that are loaded or left. -/
structure Extracts (tables : List AddressLookupTableAccount) (keys : List Pubkey)
    (lookups : List (MessageAddressTableLookup × LoadedAddresses)) (rest : List Pubkey) :
    Prop where
  loads : ∀ entry ∈ lookups, ∃ table ∈ tables, entry.1.accountKey = table.key ∧
    load (fun _ => table.addresses) entry.1 = entry.2
  subset : rest ⊆ keys
  covers : ∀ key ∈ keys, Loaded lookups key ∨ key ∈ rest

theorem extracts_of_table {table : AddressLookupTableAccount}
    {lookups : List (MessageAddressTableLookup × LoadedAddresses)} {rest : List Pubkey}
    (h : tryExtractTableLookup kind table keys = .ok (lookups, rest)) :
    Extracts [table] keys lookups rest := by
  unfold tryExtractTableLookup at h
  cases hfirst : tryDrainKeysFoundInLookupTable table.addresses (kind true) keys with
  | error e => simp [hfirst, bind, Except.bind] at h
  | ok first =>
    obtain ⟨writableIndexes, writable, between⟩ := first
    cases hsecond : tryDrainKeysFoundInLookupTable table.addresses (kind false) between with
    | error e => simp [hfirst, hsecond, bind, Except.bind] at h
    | ok second =>
      obtain ⟨readonlyIndexes, readonly, left⟩ := second
      obtain ⟨hwritable, hwritableLen, hsub, hbetween⟩ := drain_eq_ok hfirst
      obtain ⟨hreadonly, hreadonlyLen, hsub', hleft⟩ := drain_eq_ok hsecond
      have hrest := List.Subset.trans hsub' hsub
      simp only [hfirst, hsecond, bind, Except.bind, pure, Except.pure] at h
      split at h
      · next hnone =>
        simp only [Except.ok.injEq, Prod.mk.injEq] at h
        obtain ⟨rfl, rfl⟩ := h
        rw [hnone.1, List.length_nil, eq_comm, List.length_eq_zero_iff] at hwritableLen
        rw [hnone.2, List.length_nil, eq_comm, List.length_eq_zero_iff] at hreadonlyLen
        refine ⟨by simp, hrest, fun key hkey => Or.inr ?_⟩
        have := hbetween key hkey
        simp only [hwritableLen, List.not_mem_nil, false_or] at this
        have := hleft key this
        simpa only [hreadonlyLen, List.not_mem_nil, false_or] using this
      · simp only [Except.ok.injEq, Prod.mk.injEq] at h
        obtain ⟨rfl, rfl⟩ := h
        refine ⟨?_, hrest, fun key hkey => ?_⟩
        · simp only [List.mem_singleton, forall_eq, exists_eq_left, true_and]
          rw [load, hwritable, hreadonly]
        · rcases hbetween key hkey with hkey | hkey
          · exact Or.inl ⟨_, List.mem_singleton_self _, Or.inl hkey⟩
          · rcases hleft key hkey with hkey | hkey
            · exact Or.inl ⟨_, List.mem_singleton_self _, Or.inr hkey⟩
            · exact Or.inr hkey

theorem extracts_of_tables {tables : List AddressLookupTableAccount}
    {lookups : List (MessageAddressTableLookup × LoadedAddresses)} {rest : List Pubkey}
    (h : extractTableLookups kind tables keys = .ok (lookups, rest)) :
    Extracts tables keys lookups rest := by
  induction tables generalizing keys lookups rest with
  | nil =>
    cases h
    exact ⟨by simp, List.Subset.refl _, fun key hkey => Or.inr hkey⟩
  | cons table tables ih =>
    cases hfirst : tryExtractTableLookup kind table keys with
    | error e => simp [extractTableLookups, hfirst, bind, Except.bind] at h
    | ok first =>
      obtain ⟨head, between⟩ := first
      cases hsecond : extractTableLookups kind tables between with
      | error e => simp [extractTableLookups, hfirst, hsecond, bind, Except.bind] at h
      | ok second =>
        obtain ⟨tail, left⟩ := second
        simp only [extractTableLookups, hfirst, hsecond, bind, Except.bind, pure, Except.pure,
          Except.ok.injEq, Prod.mk.injEq] at h
        obtain ⟨rfl, rfl⟩ := h
        have hone := extracts_of_table hfirst
        have hrest := ih hsecond
        refine ⟨fun entry hentry => ?_, List.Subset.trans hrest.subset hone.subset,
          fun key hkey => ?_⟩
        · rcases List.mem_append.mp hentry with hentry | hentry
          · obtain ⟨table', htable, hload⟩ := hone.loads entry hentry
            obtain rfl := List.mem_singleton.mp htable
            exact ⟨table', List.mem_cons_self, hload⟩
          · obtain ⟨table', htable, hload⟩ := hrest.loads entry hentry
            exact ⟨table', List.mem_cons_of_mem _ htable, hload⟩
        · rcases hone.covers key hkey with ⟨entry, hentry, hloaded⟩ | hkey
          · exact Or.inl ⟨entry, List.mem_append_left _ hentry, hloaded⟩
          · rcases hrest.covers key hkey with ⟨entry, hentry, hloaded⟩ | hkey
            · exact Or.inl ⟨entry, List.mem_append_right _ hentry, hloaded⟩
            · exact Or.inr hkey

end Extracted

/-! ### Instructions come back in order -/

section Compiled

variable {payer key : Pubkey} {ixs : List Instruction} {keys : List Pubkey}
  {tables : List AddressLookupTableAccount} {recentBlockhash : Hash} {message : Message}

/-- What compiles, and to what. -/
theorem tryCompile_eq_ok (h : tryCompile payer ixs tables recentBlockhash = .ok message) :
    ∃ lookups keys, extractTableLookups (loadable ixs) tables (otherKeys payer ixs) =
        .ok (lookups, keys) ∧
      message.accountKeys = payer :: keyClass ixs keys true true ++ keyClass ixs keys true false ++
        keyClass ixs keys false true ++ keyClass ixs keys false false ∧
      message.addressTableLookups = lookups.map Prod.fst ∧
      (allKeys message.accountKeys (lookups.map Prod.snd)).length ≤ 256 ∧
      message.numRequiredSignatures =
        1 + (keyClass ixs keys true true).length + (keyClass ixs keys true false).length ∧
      message.instructions = ixs.map
        (compileInstruction (allKeys message.accountKeys (lookups.map Prod.snd))) := by
  unfold tryCompile at h
  cases hextract : extractTableLookups (loadable ixs) tables (otherKeys payer ixs) with
  | error e => simp [hextract, bind, Except.bind] at h
  | ok extracted =>
    obtain ⟨lookups, keys⟩ := extracted
    simp only [hextract, bind, Except.bind] at h
    split at h
    · cases h
    · next hfits =>
      cases h
      exact ⟨lookups, keys, rfl, rfl, rfl, by simp only; omega, rfl, rfl⟩

theorem mem_keyClass (hkey : key ∈ keys) :
    key ∈ keyClass ixs keys (flagged AccountMeta.isSigner ixs key)
      (flagged AccountMeta.isWritable ixs key) :=
  List.mem_filter.mpr ⟨hkey, by simp⟩

/-- Every key that is left has its place in the message. -/
theorem mem_classes (hkey : key ∈ keys) :
    key ∈ payer :: keyClass ixs keys true true ++ keyClass ixs keys true false ++
      keyClass ixs keys false true ++ keyClass ixs keys false false := by
  have hclass := @mem_keyClass key ixs keys hkey
  cases hsigner : flagged AccountMeta.isSigner ixs key <;>
    cases hwritable : flagged AccountMeta.isWritable ixs key <;>
      · rw [hsigner, hwritable] at hclass
        simp [hclass]

theorem payer_notMem_otherKeys (payer : Pubkey) (ixs : List Instruction) :
    payer ∉ otherKeys payer ixs := by
  unfold otherKeys
  rw [List.mem_insertionSort, List.mem_filter]
  simp

theorem mem_otherKeys_of_ne (hne : key ≠ payer) {ix : Instruction} (hix : ix ∈ ixs)
    (hkey : key = ix.programId ∨ key ∈ ix.accounts.map AccountMeta.pubkey) :
    key ∈ otherKeys payer ixs := by
  unfold otherKeys
  rw [List.mem_insertionSort, List.mem_filter, List.mem_dedup, List.mem_flatMap]
  exact ⟨⟨ix, hix, List.mem_cons.mpr hkey⟩, by simpa using hne⟩

theorem mem_allKeys_of_loaded {accountKeys : List Pubkey}
    {lookups : List (MessageAddressTableLookup × LoadedAddresses)} (h : Loaded lookups key) :
    key ∈ allKeys accountKeys (lookups.map Prod.snd) := by
  obtain ⟨entry, hentry, hkey⟩ := h
  have hmem : entry.2 ∈ lookups.map Prod.snd := List.mem_map_of_mem hentry
  unfold allKeys
  rw [List.append_assoc, List.mem_append, List.mem_append, List.mem_flatMap, List.mem_flatMap]
  rcases hkey with hkey | hkey
  · exact Or.inr (Or.inl ⟨entry.2, hmem, hkey⟩)
  · exact Or.inr (Or.inr ⟨entry.2, hmem, hkey⟩)

/-- An instruction whose keys have a place is read back. -/
theorem resolve_compileInstruction {ix : Instruction} (hfits : keys.length ≤ 256)
    (hkeys : ∀ key, key = ix.programId ∨ key ∈ ix.accounts.map AccountMeta.pubkey → key ∈ keys) :
    (compileInstruction keys ix).resolve keys = ix.resolved := by
  have hback : ∀ key ∈ keys, keyAt keys (UInt8.ofNat (keys.idxOf key)) = key := fun key hkey =>
    keyAt_idxOf hkey (lt_of_lt_of_le (List.idxOf_lt_length_of_mem hkey) hfits)
  unfold compileInstruction CompiledInstruction.resolve Instruction.resolved
  rw [ResolvedInstruction.mk.injEq]
  refine ⟨hback _ (hkeys _ (Or.inl rfl)), ?_, rfl⟩
  rw [List.map_map]
  exact List.map_congr_left fun account haccount =>
    hback _ (hkeys _ (Or.inr (List.mem_map_of_mem haccount)))

/-- **Compilation keeps the instructions.**  With the tables that are on the chain, the
runtime reads the instructions of the message as they were, in their order. -/
theorem resolve_of_tryCompile {chain : Chain} (hchain : chain.Holds tables)
    (h : tryCompile payer ixs tables recentBlockhash = .ok message) :
    message.resolve chain = ixs.map Instruction.resolved := by
  obtain ⟨lookups, keys, hextract, haccounts, hlookups, hfits, -, hixs⟩ := tryCompile_eq_ok h
  have hextracts := extracts_of_tables hextract
  have hloaded : message.addressTableLookups.map (load chain) = lookups.map Prod.snd := by
    rw [hlookups, List.map_map]
    refine List.map_congr_left fun entry hentry => ?_
    obtain ⟨table, htable, hkey, hload⟩ := hextracts.loads entry hentry
    rw [← hload, Function.comp_apply, load, hkey, hchain table htable, load]
  have hplace : ∀ ix ∈ ixs, ∀ key,
      key = ix.programId ∨ key ∈ ix.accounts.map AccountMeta.pubkey →
        key ∈ allKeys message.accountKeys (lookups.map Prod.snd) := by
    intro ix hix key hkey
    have hstatic : key ∈ message.accountKeys →
        key ∈ allKeys message.accountKeys (lookups.map Prod.snd) := fun hmem =>
      List.mem_append_left _ (List.mem_append_left _ hmem)
    by_cases hpayer : key = payer
    · refine hstatic ?_
      rw [haccounts, hpayer]
      exact List.mem_cons_self
    · rcases hextracts.covers key (mem_otherKeys_of_ne hpayer hix hkey) with hkey | hkey
      · exact mem_allKeys_of_loaded hkey
      · refine hstatic ?_
        rw [haccounts]
        exact mem_classes hkey
  unfold Message.resolve
  rw [hloaded, hixs, List.map_map]
  exact List.map_congr_left fun ix hix => resolve_compileInstruction hfits (hplace ix hix)

end Compiled

end MessageV0

end Gyrfalcon
