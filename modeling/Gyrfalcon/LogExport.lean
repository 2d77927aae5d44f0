import Gyrfalcon.LiquidationLog
import Gyrfalcon.Lib.Fields
import Gyrfalcon.Lib.Numeral

/-!
# Export of the log (`store/src/liquidation_log.rs`)

A slot range of the log as CSV or JSON.  Numbers, keys and names never contain a
comma or a line break; the reason of a revert may quote any program log.  It is
printed with `{:?}`, which escapes line breaks and leaves commas, so every
record stays on one line (`lines_exportCsv`), and has its eight columns exactly
when no exported log has a comma in it (`csvWellFormed_iff`).
-/

namespace Gyrfalcon

open TextLines

/-! ## Formatting -/

/-- What the export draws on from outside: `bs58`, `serde_json`, and the tables of
the standard library for characters past ASCII. -/
structure TextEnv where
  toBase58 : Pubkey → List Char
  toStringPretty : List (LiquidationRecord ℚ) → Except String (List Char)
  printableTable : Char → Bool
  graphemeExtendTable : Char → Bool

def Protocol.display : Protocol → List Char
  | .kamino => "kamino".toList

def displayU64 (n : Nat) : List Char := Nat.toDigits 10 n

/-- To whole cents, ties to even. -/
def roundToCents (x : ℚ) : Nat :=
  let scaled := |x| * 100
  let down := scaled.floor.toNat
  if scaled - down < 1 / 2 then down
  else if 1 / 2 < scaled - down then down + 1
  else if down % 2 = 0 then down
  else down + 1

/-- `{:.2}`. -/
def formatFixed2 (x : ℚ) : List Char :=
  let cents := roundToCents x
  (if x < 0 then ['-'] else []) ++ displayU64 (cents / 100) ++
    ['.', (cents / 10 % 10).digitChar, (cents % 10).digitChar]

section Debug

variable (env : TextEnv)

def isPrintable (c : Char) : Bool :=
  if c.toNat < 32 then false else if c.toNat < 127 then true else env.printableTable c

def isGraphemeExtended (c : Char) : Bool := 127 < c.toNat && env.graphemeExtendTable c

/-- `\u{…}`, the number in lower-case hexadecimal. -/
def escapeUnicode (c : Char) : List Char :=
  ['\\', 'u', '\x7b'] ++ Nat.toDigits 16 c.toNat ++ ['\x7d']

/-- One character of a string printed with `{:?}`. -/
def escapeDebug (c : Char) : List Char :=
  if c = '\x00' then ['\\', '0']
  else if c = '\t' then ['\\', 't']
  else if c = '\r' then ['\\', 'r']
  else if c = '\n' then ['\\', 'n']
  else if c = '\\' then ['\\', '\\']
  else if c = '"' then ['\\', '"']
  else if isGraphemeExtended env c then escapeUnicode c
  else if isPrintable env c then [c]
  else escapeUnicode c

def debugString (text : List Char) : List Char := '"' :: text.flatMap (escapeDebug env) ++ ['"']

/-- `{:?}` of a reason. -/
def RevertReason.debug : RevertReason → List Char
  | .raceLost => "RaceLost".toList
  | .slippageExceeded => "SlippageExceeded".toList
  | .computeExhausted => "ComputeExhausted".toList
  | .flashRepayFailed => "FlashRepayFailed".toList
  | .programError log => "ProgramError(".toList ++ debugString env log.toList ++ [')']

end Debug

/-! ## Export -/

inductive ExportFormat where
  | csv
  | json
  deriving DecidableEq, Repr

def csvHeader : List Char :=
  "protocol,position_id,repay_amount,flash_source_protocol,net_usd_expected,".toList ++
    "submitted_at_slot,resolved_at_slot,outcome".toList

section Csv

variable (env : TextEnv)

def csvOutcome : SubmitOutcome ℚ → List Char
  | .landed slot actualNetUsd =>
    "landed@".toList ++ displayU64 slot ++ [':'] ++ formatFixed2 actualNetUsd
  | .reverted reason => "reverted:".toList ++ reason.debug env
  | .notIncluded => "not_included".toList

def csvColumns (r : LiquidationRecord ℚ) : List (List Char) :=
  [r.routed.candidate.protocol.display, env.toBase58 r.routed.candidate.positionId,
    displayU64 r.routed.repayAmount, r.routed.flashSource.protocol.display,
    formatFixed2 r.routed.expected.netUsd, displayU64 r.submittedAtSlot,
    displayU64 r.resolvedAtSlot, csvOutcome env r.outcome]

def csvRow (r : LiquidationRecord ℚ) : List Char := [','].intercalate (csvColumns env r)

/-- The records of a slot range, which leaves its end out. -/
def LiquidationLog.inRange (self : LiquidationLog) (start stop : Nat) :
    List (LiquidationRecord ℚ) :=
  self.records.filter fun r => start ≤ r.submittedAtSlot && r.submittedAtSlot < stop

/-- `LiquidationLog::export`. -/
def LiquidationLog.exportLog (self : LiquidationLog) (start stop : Nat) :
    ExportFormat → Except StoreError (List Char)
  | .json => (env.toStringPretty (self.inRange start stop)).mapError .serde
  | .csv => .ok (csvHeader ++ ['\n'] ++ (self.inRange start stop).flatMap (csvRow env · ++ ['\n']))

/-- `bs58` writes keys in its alphabet. -/
def TextEnv.Base58Alphabet : Prop :=
  ∀ key, ∀ c ∈ env.toBase58 key,
    c ∈ "123456789ABCDEFGHJKLMNPQRSTUVWXYZabcdefghijkmnopqrstuvwxyz".toList

/-- The header and one line per record of the range, in the order of the log, all
of eight columns. -/
def CsvWellFormed (log : LiquidationLog) (start stop : Nat) : Prop :=
  ∃ out, log.exportLog env start stop .csv = .ok out ∧
    lines out = csvHeader :: (log.inRange start stop).map (csvRow env) ∧
    ∀ line ∈ lines out, (line.splitOn ',').length = 8

end Csv

/-! ## Plain texts -/

/-- Neither a comma nor a line break. -/
def plainChar (c : Char) : Bool := c ≠ ',' && c ≠ '\n' && c ≠ '\r'

def Plain (text : List Char) : Prop := text.all plainChar = true

instance (text : List Char) : Decidable (Plain text) :=
  inferInstanceAs (Decidable (text.all plainChar = true))

theorem plain_iff {text : List Char} : Plain text ↔ ∀ c ∈ text, plainChar c = true :=
  List.all_eq_true

theorem plainChar_iff (c : Char) : plainChar c = true ↔ c ≠ ',' ∧ c ≠ '\n' ∧ c ≠ '\r' := by
  simp [plainChar, and_assoc]

theorem Plain.comma {text : List Char} (h : Plain text) : ',' ∉ text := fun hmem =>
  absurd (plain_iff.mp h ',' hmem) (by decide)

theorem Plain.isLine {text : List Char} (h : Plain text) : IsLine text :=
  isLine_iff.mpr fun c hc => ((plainChar_iff c).mp (plain_iff.mp h c hc)).2

theorem plain_append {a b : List Char} : Plain (a ++ b) ↔ Plain a ∧ Plain b := by
  simp only [plain_iff, List.forall_mem_append]

theorem plainChar_digitChar : ∀ d < 16, plainChar d.digitChar = true := by decide

theorem plain_toDigits {b : Nat} (hb : 1 < b) (hb' : b ≤ 16) (n : Nat) :
    Plain (Nat.toDigits b n) := by
  refine plain_iff.mpr fun c hc => ?_
  obtain ⟨d, hd, rfl⟩ := Numeral.exists_digitChar_of_mem_toDigits hb hc
  exact plainChar_digitChar d (by omega)

theorem plain_displayU64 (n : Nat) : Plain (displayU64 n) :=
  plain_toDigits (by decide) (by decide) n

theorem plain_display (protocol : Protocol) : Plain protocol.display := by
  cases protocol
  decide

theorem plain_formatFixed2 (x : ℚ) : Plain (formatFixed2 x) := by
  have hsign : Plain (if x < 0 then ['-'] else []) := by
    split <;> decide
  refine plain_append.mpr ⟨plain_append.mpr ⟨hsign, plain_displayU64 _⟩, ?_⟩
  refine plain_iff.mpr fun c hc => ?_
  simp only [List.mem_cons, List.not_mem_nil, or_false] at hc
  rcases hc with rfl | rfl | rfl
  · decide
  · exact plainChar_digitChar _ (by omega)
  · exact plainChar_digitChar _ (by omega)

theorem TextEnv.Base58Alphabet.plain {env : TextEnv} (h : env.Base58Alphabet) (key : Pubkey) :
    Plain (env.toBase58 key) := by
  have halphabet : Plain "123456789ABCDEFGHJKLMNPQRSTUVWXYZabcdefghijkmnopqrstuvwxyz".toList := by
    rw [String.toList_ofList]
    decide +kernel
  exact plain_iff.mpr fun c hc => plain_iff.mp halphabet c (h key c hc)

/-! ## Escaped texts -/

section Escape

variable (env : TextEnv)

theorem plain_escapeUnicode (c : Char) : Plain (escapeUnicode c) := by
  refine plain_append.mpr ⟨plain_append.mpr ⟨?_, plain_toDigits (by decide) (by decide) _⟩, ?_⟩
  · decide
  · decide

/-- A character is escaped to plain text, or it is no line break and stays. -/
theorem escapeDebug_cases (c : Char) :
    Plain (escapeDebug env c) ∨ escapeDebug env c = [c] ∧ c ≠ '\n' ∧ c ≠ '\r' := by
  unfold escapeDebug
  split_ifs with h0 ht hr hn hb hq hg hp
  · exact Or.inl (by decide)
  · exact Or.inl (by decide)
  · exact Or.inl (by decide)
  · exact Or.inl (by decide)
  · exact Or.inl (by decide)
  · exact Or.inl (by decide)
  · exact Or.inl (plain_escapeUnicode c)
  · exact Or.inr ⟨rfl, hn, hr⟩
  · exact Or.inl (plain_escapeUnicode c)

theorem escapeDebug_comma : escapeDebug env ',' = [','] := rfl

/-- Escaping leaves no line break in a text. -/
theorem isLine_debugString (text : List Char) : IsLine (debugString env text) := by
  have hescaped : IsLine (text.flatMap (escapeDebug env)) := by
    refine isLine_iff.mpr fun c hc => ?_
    obtain ⟨source, -, hmem⟩ := List.mem_flatMap.mp hc
    rcases escapeDebug_cases env source with hplain | ⟨heq, hbreak⟩
    · exact isLine_iff.mp hplain.isLine c hmem
    · rw [heq, List.mem_singleton] at hmem
      rwa [hmem]
  have hquote : IsLine ['"'] := Plain.isLine (by decide)
  exact (hquote.append hescaped).append hquote

/-- Escaping neither adds nor removes a comma. -/
theorem comma_mem_debugString_iff (text : List Char) : ',' ∈ debugString env text ↔ ',' ∈ text := by
  rw [debugString, List.mem_append, List.mem_cons, or_iff_left (by decide),
    or_iff_right (by decide), List.mem_flatMap]
  constructor
  · rintro ⟨source, hsource, hmem⟩
    rcases escapeDebug_cases env source with hplain | ⟨heq, -⟩
    · exact absurd hmem hplain.comma
    · rw [heq, List.mem_singleton] at hmem
      rwa [hmem]
  · intro hmem
    exact ⟨',', hmem, by simp [escapeDebug_comma]⟩

end Escape

/-! ## Lines and columns -/

/-- The outcome quotes a program log with a comma in it. -/
def QuotesComma (outcome : SubmitOutcome ℚ) : Prop :=
  ∃ log, outcome = .reverted (.programError log) ∧ ',' ∈ log.toList

section Columns

theorem isLine_csvHeader : IsLine csvHeader := by
  have hall : csvHeader.all (fun c => c != '\n' && c != '\r') = true := by
    unfold csvHeader
    repeat rw [String.toList_ofList]
    decide +kernel
  exact isLine_iff_all.mpr hall

theorem length_splitOn_csvHeader : (csvHeader.splitOn ',').length = 8 := by
  unfold csvHeader
  repeat rw [String.toList_ofList]
  decide +kernel

variable (env : TextEnv)

theorem RevertReason.plain_debug {reason : RevertReason}
    (h : ∀ log, reason ≠ .programError log) : Plain (reason.debug env) := by
  cases reason with
  | raceLost => exact show Plain "RaceLost".toList by decide
  | slippageExceeded => exact show Plain "SlippageExceeded".toList by decide
  | computeExhausted => exact show Plain "ComputeExhausted".toList by decide
  | flashRepayFailed => exact show Plain "FlashRepayFailed".toList by decide
  | programError log => exact absurd rfl (h log)

/-- The outcome is plain, but for a program log it may quote. -/
theorem plain_csvOutcome {outcome : SubmitOutcome ℚ}
    (h : ∀ log, outcome ≠ .reverted (.programError log)) : Plain (csvOutcome env outcome) := by
  cases outcome with
  | landed slot actualNetUsd =>
    refine plain_append.mpr ⟨plain_append.mpr ⟨plain_append.mpr ⟨?_, ?_⟩, ?_⟩, ?_⟩
    · decide
    · exact plain_displayU64 slot
    · decide
    · exact plain_formatFixed2 actualNetUsd
  | reverted reason =>
    have hreason : ∀ log, reason ≠ .programError log := fun log heq => h log (by rw [heq])
    exact plain_append.mpr ⟨by decide, RevertReason.plain_debug env hreason⟩
  | notIncluded => exact show Plain "not_included".toList by decide

theorem csvOutcome_programError (log : String) :
    csvOutcome env (.reverted (.programError log)) =
      "reverted:ProgramError(".toList ++ debugString env log.toList ++ [')'] := rfl

theorem isLine_csvOutcome (outcome : SubmitOutcome ℚ) : IsLine (csvOutcome env outcome) := by
  by_cases h : ∃ log, outcome = .reverted (.programError log)
  · obtain ⟨log, rfl⟩ := h
    have hopen : IsLine "reverted:ProgramError(".toList := Plain.isLine (by decide)
    have hclose : IsLine [')'] := Plain.isLine (by decide)
    rw [csvOutcome_programError]
    exact (hopen.append (isLine_debugString env _)).append hclose
  · exact (plain_csvOutcome env (not_exists.mp h)).isLine

theorem comma_mem_csvOutcome_iff (outcome : SubmitOutcome ℚ) :
    ',' ∈ csvOutcome env outcome ↔ QuotesComma outcome := by
  by_cases h : ∃ log, outcome = .reverted (.programError log)
  · obtain ⟨log, rfl⟩ := h
    have hquotes : QuotesComma (.reverted (.programError log)) ↔ ',' ∈ log.toList := by
      simp [QuotesComma]
    rw [hquotes, csvOutcome_programError, List.mem_append, List.mem_append,
      or_iff_left (by decide), or_iff_right (by decide), comma_mem_debugString_iff]
  · refine iff_of_false (plain_csvOutcome env (not_exists.mp h)).comma ?_
    rintro ⟨log, heq, -⟩
    exact h ⟨log, heq⟩

variable {env} (h : env.Base58Alphabet)

include h

theorem isLine_csvRow (r : LiquidationRecord ℚ) : IsLine (csvRow env r) := by
  have hcolumns : ∀ column ∈ csvColumns env r, IsLine column := by
    simp only [csvColumns, List.forall_mem_cons]
    exact ⟨(plain_display _).isLine, (h.plain _).isLine, (plain_displayU64 _).isLine,
      (plain_display _).isLine, (plain_formatFixed2 _).isLine, (plain_displayU64 _).isLine,
      (plain_displayU64 _).isLine, isLine_csvOutcome env _, by simp⟩
  refine isLine_iff.mpr fun c hc => ?_
  rcases Fields.mem_intercalate hc with rfl | ⟨column, hcolumn, hmem⟩
  · decide
  · exact isLine_iff.mp (hcolumns column hcolumn) c hmem

/-- A row has eight columns exactly when its outcome quotes no comma. -/
theorem length_splitOn_csvRow_iff (r : LiquidationRecord ℚ) :
    ((csvRow env r).splitOn ',').length = 8 ↔ ¬ QuotesComma r.outcome := by
  have hone : ∀ {text : List Char}, Plain text → (text.splitOn ',').length = 1 := fun htext =>
    (Fields.length_splitOn_eq_one_iff _ _).mpr htext.comma
  rw [csvRow, Fields.length_splitOn_intercalate _ (by simp [csvColumns]),
    ← comma_mem_csvOutcome_iff env, ← Fields.length_splitOn_eq_one_iff]
  simp only [csvColumns, List.map_cons, List.map_nil, List.sum_cons, List.sum_nil,
    hone (plain_display _), hone (h.plain _), hone (plain_displayU64 _),
    hone (plain_formatFixed2 _)]
  omega

/-- One line per record, whatever the outcomes quote. -/
theorem lines_exportCsv (log : LiquidationLog) (start stop : Nat) :
    lines (csvHeader ++ ['\n'] ++ (log.inRange start stop).flatMap (csvRow env · ++ ['\n'])) =
      csvHeader :: (log.inRange start stop).map (csvRow env) := by
  have hunlines : csvHeader ++ ['\n'] ++ (log.inRange start stop).flatMap (csvRow env · ++ ['\n']) =
      unlines (csvHeader :: (log.inRange start stop).map (csvRow env)) := by
    simp [unlines, List.flatMap_map]
  rw [hunlines]
  refine lines_unlines fun line hline => ?_
  rcases List.mem_cons.mp hline with hheader | hline
  · rw [hheader]
    exact isLine_csvHeader
  · obtain ⟨r, -, rfl⟩ := List.mem_map.mp hline
    exact isLine_csvRow h r

end Columns

/-- **When the CSV export is well formed.**  Exactly when no record of the range
reverted with a program log that has a comma in it. -/
theorem csvWellFormed_iff (env : TextEnv) (h : env.Base58Alphabet) (log : LiquidationLog)
    (start stop : Nat) :
    CsvWellFormed env log start stop ↔
      ∀ r ∈ log.records, start ≤ r.submittedAtSlot → r.submittedAtSlot < stop →
        ∀ text, r.outcome = .reverted (.programError text) → ',' ∉ text.toList := by
  have hexport : CsvWellFormed env log start stop ↔
      ∀ r ∈ log.inRange start stop, ¬ QuotesComma r.outcome := by
    constructor
    · rintro ⟨out, hout, hlines, hcolumns⟩ r hr
      refine (length_splitOn_csvRow_iff h r).mp (hcolumns _ ?_)
      rw [hlines]
      exact List.mem_cons_of_mem _ (List.mem_map_of_mem hr)
    · intro hno
      refine ⟨csvHeader ++ ['\n'] ++ (log.inRange start stop).flatMap (csvRow env · ++ ['\n']), rfl,
        lines_exportCsv h log start stop, ?_⟩
      rw [lines_exportCsv h]
      intro line hline
      rcases List.mem_cons.mp hline with hheader | hline
      · rw [hheader]
        exact length_splitOn_csvHeader
      · obtain ⟨r, hr, rfl⟩ := List.mem_map.mp hline
        exact (length_splitOn_csvRow_iff h r).mpr (hno r hr)
  rw [hexport]
  simp only [LiquidationLog.inRange, List.mem_filter, Bool.and_eq_true, decide_eq_true_eq,
    QuotesComma, not_exists, not_and, and_imp]

/-! ## Two exports -/

/-- Formatting as far as the sample record is concerned. -/
def TextEnv.sample : TextEnv where
  toBase58 _ := "cGfHiC6Kgg3FpFZvgwGcswsCRtp4aBP2fzuXRQPizuN".toList
  toStringPretty _ := .error "unused"
  printableTable _ := true
  graphemeExtendTable _ := false

theorem TextEnv.sample_alphabet : TextEnv.sample.Base58Alphabet := by
  have halphabet : "cGfHiC6Kgg3FpFZvgwGcswsCRtp4aBP2fzuXRQPizuN".toList.all fun c =>
      "123456789ABCDEFGHJKLMNPQRSTUVWXYZabcdefghijkmnopqrstuvwxyz".toList.contains c := by
    repeat rw [String.toList_ofList]
    decide +kernel
  exact fun _ c hc => List.contains_iff_mem.mp (List.all_eq_true.mp halphabet c hc)

/-- The sample record, reverted with a program log. -/
def revertedRecord (log : String) : LiquidationRecord ℚ :=
  { sampleRecord with outcome := .reverted (.programError log) }

/-- A landed record and one whose log has two lines. -/
theorem csvWellFormed_two_line_log :
    CsvWellFormed .sample ⟨[sampleRecord, revertedRecord "error 0x1\nin klend"], none⟩ 0 200 := by
  refine (csvWellFormed_iff .sample TextEnv.sample_alphabet _ _ _).mpr ?_
  intro r hr _ _ text htext
  rcases List.mem_cons.mp hr with rfl | hr
  · cases htext
  · rw [List.mem_singleton.mp hr] at htext
    cases htext
    decide

/-- A log with a comma gives its row a ninth column. -/
theorem comma_in_program_log_splits_row :
    let r := revertedRecord "instruction 3 failed, custom error 0x1"
    ((csvRow .sample r).splitOn ',').length = 9 ∧ ¬ CsvWellFormed .sample ⟨[r], none⟩ 0 200 := by
  intro r
  have hnine : ((csvRow .sample r).splitOn ',').length = 9 := by decide +kernel
  refine ⟨hnine, ?_⟩
  rintro ⟨out, -, hlines, hcolumns⟩
  have height : ((csvRow .sample r).splitOn ',').length = 8 := by
    refine hcolumns _ ?_
    rw [hlines]
    exact List.mem_cons_of_mem _ (List.mem_map_of_mem List.mem_cons_self)
  omega

end Gyrfalcon
