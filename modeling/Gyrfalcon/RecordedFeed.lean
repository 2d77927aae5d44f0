import Gyrfalcon.Ingestion
import Gyrfalcon.Lib.EarlyExit
import Gyrfalcon.Lib.TextLines

/-!
# Recorded feeds (`ingestion/src/feed.rs`)

A file of recorded accounts, one JSON object a line, read to its end before the
first account is handed out.  `serde_json`, `bs58` and `base64`, third-party
crates, are parameters.

`IsRecord` says which lines are records, `Refuses` which error a line is refused
with.  A text loads all or nothing (`parse_all_or_nothing`), and what the drain
then takes are the records of its lines (`conserved_of_parse`).
-/

namespace Gyrfalcon

open TextLines

/-! ## The reader -/

/-- One line, as `serde_json` reads it. -/
structure RecordedAccountLine where
  pubkey : List Char
  owner : List Char
  dataBase64 : List Char
  slot : Nat
  deriving DecidableEq, Repr

inductive RecordedFeedError where
  | io (path source : String)
  | json (lineNo : Nat) (source : String)
  | badPubkey (lineNo : Nat)
  | invalidBase64
  deriving DecidableEq, Repr

/-- `serde_json` at the type of a line, and the decoders of `bs58` and `base64`. -/
structure FixtureCodec where
  fromStr : List Char → Except String RecordedAccountLine
  bs58Decode : List Char → Except String (List UInt8)
  base64Standard : List Char → Except String (List UInt8)

/-- `Pubkey::from_base58`.  Decoding `onto` a buffer of 32 bytes fails on more of
them, the check behind it on fewer. -/
def Pubkey.fromBase58 (decode : List Char → Except String (List UInt8)) (s : List Char) :
    Except String Pubkey := do
  let bytes ← decode s
  if h : bytes.length = 32 then .ok ⟨bytes, h⟩
  else .error "buffer provided to decode base58 encoded string into was too small"

def base64Decode (codec : FixtureCodec) (s : List Char) :
    Except RecordedFeedError (List UInt8) :=
  if s = [] then .ok []
  else (codec.base64Standard (trim s)).mapError fun _ => .invalidBase64

structure RecordedFeed where
  records : List RawAccount
  deriving DecidableEq, Repr

namespace RecordedFeed

/-- What the loop of `parse` does with a line that is not blank; `i` lines come
before it. -/
def readLine (codec : FixtureCodec) (i : Nat) (line : List Char) :
    Except RecordedFeedError RawAccount := do
  let parsed ← (codec.fromStr line).mapError (.json (i + 1))
  let pubkey ← (Pubkey.fromBase58 codec.bs58Decode parsed.pubkey).mapError
    fun _ => .badPubkey (i + 1)
  let owner ← (Pubkey.fromBase58 codec.bs58Decode parsed.owner).mapError
    fun _ => .badPubkey (i + 1)
  let data ← base64Decode codec parsed.dataBase64
  return ⟨pubkey, owner, data, parsed.slot⟩

/-- The body of the loop. -/
def parseLine (codec : FixtureCodec) (records : List RawAccount) (item : List Char × Nat) :
    Except RecordedFeedError (List RawAccount) :=
  let (line, i) := item
  if (trim line).isEmpty then .ok records
  else do
    let raw ← readLine codec i line
    return records ++ [raw]

def parse (codec : FixtureCodec) (contents : List Char) :
    Except RecordedFeedError RecordedFeed := do
  let records ← (lines contents).zipIdx.foldlM (parseLine codec) []
  return ⟨records⟩

/-- `contents` is what reading `path` gives. -/
def load (codec : FixtureCodec) (path : String) (contents : Except String (List UInt8)) :
    Except RecordedFeedError RecordedFeed := do
  let bytes ← contents.mapError (.io path)
  match decodeUtf8 bytes with
  | none => throw (.io path "stream did not contain valid UTF-8")
  | some text => parse codec text

/-- The records are an iterator: each call takes one off the front. -/
def next (self : RecordedFeed) : Option RawAccount × RecordedFeed :=
  match self.records with
  | [] => (none, self)
  | raw :: records => (some raw, ⟨records⟩)

end RecordedFeed

/-! ## Lines -/

namespace FixtureCodec

variable (codec : FixtureCodec)

/-- The base58 of a key of 32 bytes. -/
def IsKey (text : List Char) (key : Pubkey) : Prop := codec.bs58Decode text = .ok key.bytes

/-- The base64 of `data`, perhaps with white space around it. -/
def IsData (text : List Char) (data : List UInt8) : Prop :=
  text = [] ∧ data = [] ∨ text ≠ [] ∧ codec.base64Standard (trim text) = .ok data

/-- A valid record: JSON of the right shape with two keys and the data. -/
def IsRecord (line : List Char) (raw : RawAccount) : Prop :=
  ∃ parsed, codec.fromStr line = .ok parsed ∧ codec.IsKey parsed.pubkey raw.pubkey ∧
    codec.IsKey parsed.owner raw.owner ∧ codec.IsData parsed.dataBase64 raw.data ∧
    raw.slot = parsed.slot

/-- The error of a line that is no record: that of the first part that is wrong. -/
inductive Refuses (lineNo : Nat) (line : List Char) : RecordedFeedError → Prop where
  | json {source : String} (h : codec.fromStr line = .error source) :
      Refuses lineNo line (.json lineNo source)
  | badPubkey {parsed : RecordedAccountLine} (h : codec.fromStr line = .ok parsed)
      (hkey : (∀ key, ¬ codec.IsKey parsed.pubkey key) ∨ ∀ key, ¬ codec.IsKey parsed.owner key) :
      Refuses lineNo line (.badPubkey lineNo)
  | invalidBase64 {parsed : RecordedAccountLine} {pubkey owner : Pubkey}
      (h : codec.fromStr line = .ok parsed) (hpubkey : codec.IsKey parsed.pubkey pubkey)
      (howner : codec.IsKey parsed.owner owner)
      (hdata : ∀ data, ¬ codec.IsData parsed.dataBase64 data) :
      Refuses lineNo line .invalidBase64

end FixtureCodec

section OneLine

variable (codec : FixtureCodec)

theorem Pubkey.fromBase58_eq_ok_iff {text : List Char} {key : Pubkey} :
    Pubkey.fromBase58 codec.bs58Decode text = .ok key ↔ codec.IsKey text key := by
  unfold Pubkey.fromBase58 FixtureCodec.IsKey
  cases hdecode : codec.bs58Decode text with
  | error e => simp [bind, Except.bind]
  | ok bytes =>
    simp only [bind, Except.bind, Except.ok.injEq]
    by_cases hlen : bytes.length = 32
    · rw [dif_pos hlen, Except.ok.injEq]
      constructor
      · rintro rfl
        rfl
      · rintro rfl
        rfl
    · rw [dif_neg hlen]
      refine iff_of_false (nomatch ·) ?_
      rintro rfl
      exact hlen key.length_eq

theorem Pubkey.fromBase58_of_not_isKey {text : List Char} (h : ∀ key, ¬ codec.IsKey text key) :
    ∃ e, Pubkey.fromBase58 codec.bs58Decode text = .error e := by
  cases hdecode : Pubkey.fromBase58 codec.bs58Decode text with
  | ok key => exact absurd ((Pubkey.fromBase58_eq_ok_iff codec).mp hdecode) (h key)
  | error e => exact ⟨e, rfl⟩

theorem base64Decode_eq_ok_iff {text : List Char} {data : List UInt8} :
    base64Decode codec text = .ok data ↔ codec.IsData text data := by
  unfold base64Decode FixtureCodec.IsData
  by_cases hempty : text = []
  · simp [hempty, eq_comm]
  · cases hdecode : codec.base64Standard (trim text) with
    | error e => simp [hempty, Except.mapError]
    | ok bytes => simp [hempty, Except.mapError]

theorem base64Decode_of_not_isData {text : List Char} (h : ∀ data, ¬ codec.IsData text data) :
    base64Decode codec text = .error .invalidBase64 := by
  cases hdecode : base64Decode codec text with
  | ok data => exact absurd ((base64Decode_eq_ok_iff codec).mp hdecode) (h data)
  | error e =>
    unfold base64Decode at hdecode
    split at hdecode
    · cases hdecode
    · cases hstandard : codec.base64Standard (trim text) with
      | ok bytes =>
        rw [hstandard] at hdecode
        cases hdecode
      | error e' =>
        rw [hstandard] at hdecode
        cases hdecode
        rfl

end OneLine

/-- Every line is a record or refused. -/
theorem FixtureCodec.isRecord_or_refuses (codec : FixtureCodec) (lineNo : Nat)
    (line : List Char) :
    (∃ raw, codec.IsRecord line raw) ∨ ∃ e, codec.Refuses lineNo line e := by
  cases hjson : codec.fromStr line with
  | error source => exact Or.inr ⟨_, .json hjson⟩
  | ok parsed =>
    by_cases hpubkey : ∃ pubkey, codec.IsKey parsed.pubkey pubkey
    · by_cases howner : ∃ owner, codec.IsKey parsed.owner owner
      · obtain ⟨pubkey, hpubkey⟩ := hpubkey
        obtain ⟨owner, howner⟩ := howner
        by_cases hdata : ∃ data, codec.IsData parsed.dataBase64 data
        · obtain ⟨data, hdata⟩ := hdata
          exact Or.inl ⟨⟨pubkey, owner, data, parsed.slot⟩, parsed, hjson, hpubkey, howner, hdata,
            rfl⟩
        · exact Or.inr ⟨_, .invalidBase64 hjson hpubkey howner (not_exists.mp hdata)⟩
      · exact Or.inr ⟨_, .badPubkey hjson (Or.inr (not_exists.mp howner))⟩
    · exact Or.inr ⟨_, .badPubkey hjson (Or.inl (not_exists.mp hpubkey))⟩

namespace RecordedFeed

variable {codec : FixtureCodec} {i : Nat} {line : List Char}

theorem readLine_of_isRecord {raw : RawAccount} (h : codec.IsRecord line raw) :
    readLine codec i line = .ok raw := by
  obtain ⟨parsed, hjson, hpubkey, howner, hdata, hslot⟩ := h
  simp only [readLine, hjson, (Pubkey.fromBase58_eq_ok_iff codec).mpr hpubkey,
    (Pubkey.fromBase58_eq_ok_iff codec).mpr howner, (base64Decode_eq_ok_iff codec).mpr hdata,
    Except.mapError, bind, Except.bind, ← hslot]
  rfl

theorem readLine_of_refuses {e : RecordedFeedError} (h : codec.Refuses (i + 1) line e) :
    readLine codec i line = .error e := by
  cases h with
  | json hjson => simp [readLine, hjson, Except.mapError, bind, Except.bind]
  | @badPubkey parsed hjson hkey =>
    simp only [readLine, hjson, Except.mapError, bind, Except.bind]
    cases hpubkey : Pubkey.fromBase58 codec.bs58Decode parsed.pubkey with
    | error e => rfl
    | ok pubkey =>
      have howner : ∀ key, ¬ codec.IsKey parsed.owner key := hkey.resolve_left fun hno =>
        hno pubkey ((Pubkey.fromBase58_eq_ok_iff codec).mp hpubkey)
      obtain ⟨e, he⟩ := Pubkey.fromBase58_of_not_isKey codec howner
      simp [he]
  | invalidBase64 hjson hpubkey howner hdata =>
    simp [readLine, hjson, (Pubkey.fromBase58_eq_ok_iff codec).mpr hpubkey,
      (Pubkey.fromBase58_eq_ok_iff codec).mpr howner, base64Decode_of_not_isData codec hdata,
      Except.mapError, bind, Except.bind]

theorem readLine_eq_ok_iff (i : Nat) (line : List Char) (raw : RawAccount) :
    readLine codec i line = .ok raw ↔ codec.IsRecord line raw := by
  refine ⟨fun hread => ?_, readLine_of_isRecord⟩
  obtain ⟨raw', hrecord⟩ | ⟨e, hrefuses⟩ := codec.isRecord_or_refuses (i + 1) line
  · rw [readLine_of_isRecord hrecord] at hread
    cases hread
    exact hrecord
  · rw [readLine_of_refuses hrefuses] at hread
    cases hread

theorem readLine_eq_error_iff {e : RecordedFeedError} :
    readLine codec i line = .error e ↔ codec.Refuses (i + 1) line e := by
  refine ⟨fun hread => ?_, readLine_of_refuses⟩
  obtain ⟨raw, hrecord⟩ | ⟨e', hrefuses⟩ := codec.isRecord_or_refuses (i + 1) line
  · rw [readLine_of_isRecord hrecord] at hread
    cases hread
  · rw [readLine_of_refuses hrefuses] at hread
    cases hread
    exact hrefuses

/-! ## The loop -/

/-- A line of white space only. -/
def blank (line : List Char) : Bool := (trim line).isEmpty

theorem parseLine_eq (codec : FixtureCodec) :
    parseLine codec = EarlyExit.body blank (readLine codec) := by
  funext records item
  obtain ⟨line, i⟩ := item
  have hpush : (do let raw ← readLine codec i line; return records ++ [raw]) =
      (readLine codec i line).map (records ++ [·]) := by
    cases readLine codec i line <;> rfl
  simp only [parseLine, hpush]
  rfl

theorem parse_eq (codec : FixtureCodec) (contents : List Char) :
    parse codec contents =
      (EarlyExit.loop blank (readLine codec) [] 0 (lines contents)).map RecordedFeed.mk := by
  rw [parse, parseLine_eq]
  rfl

theorem parse_eq_ok_iff (codec : FixtureCodec) (contents : List Char) (feed : RecordedFeed) :
    parse codec contents = .ok feed ↔
      List.Forall₂ codec.IsRecord ((lines contents).filter fun line => !blank line)
        feed.records := by
  have hmap : parse codec contents = .ok feed ↔
      EarlyExit.loop blank (readLine codec) [] 0 (lines contents) = .ok feed.records := by
    rw [parse_eq]
    cases EarlyExit.loop blank (readLine codec) [] 0 (lines contents) with
    | error e => simp [Except.map]
    | ok records =>
      rw [Except.map, Except.ok.injEq, Except.ok.injEq]
      exact ⟨fun h => h ▸ rfl, fun h => h ▸ rfl⟩
  rw [hmap, EarlyExit.loop_eq_ok_iff readLine_eq_ok_iff]
  simp

theorem exists_parse_eq_ok_iff (codec : FixtureCodec) (contents : List Char) :
    (∃ feed, parse codec contents = .ok feed) ↔
      ∀ line ∈ lines contents, blank line = false → ∃ raw, codec.IsRecord line raw := by
  have hloop : (∃ feed, parse codec contents = .ok feed) ↔
      ∃ out, EarlyExit.loop blank (readLine codec) [] 0 (lines contents) = .ok out := by
    rw [parse_eq]
    cases EarlyExit.loop blank (readLine codec) [] 0 (lines contents) <;> simp [Except.map]
  exact hloop.trans (EarlyExit.exists_loop_eq_ok_iff readLine_eq_ok_iff)

theorem parse_eq_error_iff (codec : FixtureCodec) (contents : List Char)
    (e : RecordedFeedError) :
    parse codec contents = .error e ↔
      EarlyExit.StopsAt blank (readLine codec) codec.IsRecord 0 (lines contents) e := by
  rw [← EarlyExit.loop_eq_error_iff readLine_eq_ok_iff, parse_eq]
  cases EarlyExit.loop blank (readLine codec) [] 0 (lines contents) <;> simp [Except.map]

/-! ## Handing out -/

/-- The answer of a call of `next` that `n` others came before. -/
def nextAfter : RecordedFeed → Nat → Option RawAccount
  | self, 0 => self.next.1
  | self, n + 1 => nextAfter self.next.2 n

theorem nextAfter_eq (self : RecordedFeed) (n : Nat) : self.nextAfter n = self.records[n]? := by
  induction n generalizing self with
  | zero =>
    obtain ⟨records⟩ := self
    cases records <;> rfl
  | succ n ih =>
    obtain ⟨records⟩ := self
    rw [nextAfter, ih]
    cases records <;> rfl

/-- **Recorded feeds load all or nothing.**  A text loads exactly when each of its
lines is blank or a record; then `next` gives the records in the order of their
lines, and nothing after them.  Otherwise the error is that of the first line
that is neither, with the number it has among all lines, blank ones included. -/
theorem parse_all_or_nothing (codec : FixtureCodec) (contents : List Char) :
    ((∃ feed, parse codec contents = .ok feed) ↔
        ∀ line ∈ lines contents, blank line = false → ∃ raw, codec.IsRecord line raw) ∧
      (∀ feed, parse codec contents = .ok feed →
        ∃ records, List.Forall₂ codec.IsRecord
            ((lines contents).filter fun line => !blank line) records ∧
          ∀ n, feed.nextAfter n = records[n]?) ∧
      ∀ e, parse codec contents = .error e ↔
        ∃ before line after, lines contents = before ++ line :: after ∧
          (∀ earlier ∈ before, blank earlier = false → ∃ raw, codec.IsRecord earlier raw) ∧
          blank line = false ∧ codec.Refuses (before.length + 1) line e := by
  refine ⟨?_, fun feed hfeed => ?_, fun e => ?_⟩
  · exact exists_parse_eq_ok_iff codec contents
  · exact ⟨feed.records, (parse_eq_ok_iff codec contents feed).mp hfeed, feed.nextAfter_eq⟩
  · rw [parse_eq_error_iff]
    simp only [EarlyExit.StopsAt, Nat.zero_add, readLine_eq_error_iff]

/-! ## A sample fixture -/

def sampleKey : List Char := "4vJ9JU1bJJE96FWSJKvHsmmFADCg4gpZQff4P3bkLKi".toList

def sampleOwner : List Char := "cGfHiC6Kgg3FpFZvgwGcswsCRtp4aBP2fzuXRQPizuN".toList

/-- Four bytes of account `[1; 32]`, recorded at a slot. -/
def fixtureLine (slot : List Char) : List Char :=
  "\x7b\"pubkey\": \"".toList ++ sampleKey ++ "\", \"owner\": \"".toList ++ sampleOwner ++
    "\", \"data_base64\": \"3q2+7w==\", \"slot\": ".toList ++ slot ++ ['\x7d']

/-- The crates as far as the lines of the sample are concerned. -/
def sampleCodec : FixtureCodec where
  fromStr line :=
    if line = fixtureLine "111".toList then
      .ok ⟨sampleKey, sampleOwner, "3q2+7w==".toList, 111⟩
    else if line = fixtureLine "222".toList then
      .ok ⟨sampleKey, sampleOwner, "3q2+7w==".toList, 222⟩
    else .error "expected ident at line 1 column 2"
  bs58Decode text :=
    if text = sampleKey then .ok (List.replicate 32 1)
    else if text = sampleOwner then .ok (List.replicate 32 9)
    else .error "provided string contained invalid character"
  base64Standard text :=
    if text = "3q2+7w==".toList then .ok [0xde, 0xad, 0xbe, 0xef] else .error "Invalid padding"

/-- Two records with a blank line between them; and a bad third line, the second
being blank. -/
theorem parse_all_or_nothing_blank_line :
    let raw (slot : Nat) : RawAccount :=
      ⟨Bytes32.fill 1, Bytes32.fill 9, [0xde, 0xad, 0xbe, 0xef], slot⟩
    let loads := fixtureLine "111".toList ++ "\n \t\n".toList ++ fixtureLine "222".toList
    let fails := fixtureLine "111".toList ++ "\n\nnot json\n".toList
    (∃ feed, parse sampleCodec loads = .ok feed ∧ feed.records = [raw 111, raw 222] ∧
        ∃ records, List.Forall₂ sampleCodec.IsRecord
            ((lines loads).filter fun line => !blank line) records ∧
          ∀ n, feed.nextAfter n = records[n]?) ∧
      parse sampleCodec fails = .error (.json 3 "expected ident at line 1 column 2") ∧
      ¬ ∀ line ∈ lines fails, blank line = false → ∃ raw, sampleCodec.IsRecord line raw := by
  intro raw loads fails
  have hloads : parse sampleCodec loads = .ok ⟨[raw 111, raw 222]⟩ := by
    unfold loads sampleCodec fixtureLine sampleKey sampleOwner
    repeat rw [String.toList_ofList]
    decide +kernel
  have hfails : parse sampleCodec fails = .error (.json 3 "expected ident at line 1 column 2") := by
    unfold fails sampleCodec fixtureLine sampleKey sampleOwner
    repeat rw [String.toList_ofList]
    decide +kernel
  obtain ⟨-, hrecords, -⟩ := parse_all_or_nothing sampleCodec loads
  refine ⟨⟨_, hloads, rfl, hrecords _ hloads⟩, hfails, fun hall => ?_⟩
  obtain ⟨feed, hfeed⟩ := (parse_all_or_nothing sampleCodec fails).1.mpr hall
  rw [hfails] at hfeed
  cases hfeed

/-! ## The drain (`ingestion/src/pipeline.rs`) -/

section Drain

variable {capacity : Nat} (registry : DecoderRegistry)

/-- A turn of the drain takes what `next` takes. -/
theorem source_drain {s : Ingestion capacity} {feed : RecordedFeed}
    (h : s.source = feed.records) :
    (Ingestion.step registry s .drain).1.source = feed.next.2.records := by
  obtain ⟨records⟩ := feed
  rw [Ingestion.source_step, h]
  cases records <;> rfl

/-- **From the file to the ring.**  However the drain of a loaded feed and the
consumer alternate, every record of the text is taken or still to come, in the
order of its lines, and the books of `Conserved` hold for them. -/
theorem conserved_of_parse {codec : FixtureCodec} {contents : List Char} {feed : RecordedFeed}
    (h : parse codec contents = .ok feed) (ring : RingBuffer capacity) (turns : List Turn) :
    let last := Machine.final (Ingestion.step registry) (Ingestion.start feed.records ring) turns
    let ledger := Ledger.ofEvents
      (Machine.outputs (Ingestion.step registry) (Ingestion.start feed.records ring) turns)
    List.Forall₂ codec.IsRecord ((lines contents).filter fun line => !blank line)
        (ledger.taken ++ last.source) ∧
      Ingestion.Conserved registry feed.records ring ledger last := by
  intro last ledger
  have hbooks : Ingestion.Conserved registry feed.records ring ledger last :=
    Ingestion.Conserved.run feed.records ring turns
  rw [hbooks.taken]
  exact ⟨(parse_eq_ok_iff codec contents feed).mp h, hbooks⟩

end Drain

end RecordedFeed

end Gyrfalcon
