import Gyrfalcon.Core
import Gyrfalcon.Lib.EarlyExit
import Gyrfalcon.Lib.TextLines

/-!
# Liquidation log (`store/src/liquidation_log.rs`)

An append-only file of JSON lines and the records in memory that go with it.
The file is its bytes, `none` where there is no file; `serde_json`, a
third-party crate, is a parameter.  Two results: across clean appends and
restarts nothing is lost, and what an append that is cut off may leave behind
without making the log unreadable.
-/

namespace Gyrfalcon

open TextLines

/-- `serde_json`, at the record type of the log. -/
structure SerdeJson where
  toString : LiquidationRecord ℚ → List Char
  fromStr : List Char → Except String (LiquidationRecord ℚ)

inductive StoreError where
  | io (path source : String)
  | serde (error : String)
  | capacityExceeded (details : String)
  deriving DecidableEq, Repr

/-! ## The file -/

/-- How the write of one line ends. -/
inductive Write where
  | complete
  | cutOff (written : Nat)
  deriving DecidableEq, Repr

/-- The bytes of `writeln!(file, "…")` for a record. -/
def SerdeJson.lineBytes (serde : SerdeJson) (record : LiquidationRecord ℚ) : List UInt8 :=
  utf8 (serde.toString record ++ ['\n'])

/-- The file, created if need be, after one line was written to its end: both
`append` and the background writer do this. -/
def writeLine (serde : SerdeJson) (file : Option (List UInt8)) (record : LiquidationRecord ℚ)
    (write : Write) : Option (List UInt8) :=
  some (file.getD [] ++
    match write with
    | .complete => serde.lineBytes record
    | .cutOff written => (serde.lineBytes record).take written)

/-! ## The log -/

structure LiquidationLog where
  records : List (LiquidationRecord ℚ)
  backingFile : Option String
  deriving DecidableEq, Repr

namespace LiquidationLog

def inMemory : LiquidationLog := ⟨[], none⟩

/-- The records of a file that exists; blank lines are skipped. -/
def readRecords (serde : SerdeJson) (path : String) (contents : List UInt8) :
    Except StoreError (List (LiquidationRecord ℚ)) :=
  match decodeUtf8 contents with
  | none => .error (.io path "stream did not contain valid UTF-8")
  | some text =>
    (((lines text).filter fun line => !(trim line).isEmpty).mapM serde.fromStr).mapError .serde

/-- `LiquidationLog::open`. -/
def openLog (serde : SerdeJson) (file : Option (List UInt8)) (path : String) :
    Except StoreError LiquidationLog :=
  match file with
  | none => .ok ⟨[], some path⟩
  | some contents => (readRecords serde path contents).map fun records => ⟨records, some path⟩

/-- `append`, and the file after it; the record is kept in memory only when the
write went through. -/
def append (self : LiquidationLog) (serde : SerdeJson) (file : Option (List UInt8))
    (record : LiquidationRecord ℚ) (write : Write) :
    Except StoreError LiquidationLog × Option (List UInt8) :=
  let pushed : LiquidationLog := { self with records := self.records ++ [record] }
  match self.backingFile with
  | none => (.ok pushed, file)
  | some path =>
    (match write with
      | .complete => .ok pushed
      | .cutOff _ => .error (.io path "failed to write whole buffer"),
    writeLine serde file record write)

end LiquidationLog

/-! ## Reading what was written -/

/-- What the log relies on for one record: its JSON is one non-blank line (control
characters are escaped in it), and decodes to the record. -/
structure SerdeJson.WritesLine (serde : SerdeJson) (record : LiquidationRecord ℚ) : Prop where
  isLine : IsLine (serde.toString record)
  nonblank : trim (serde.toString record) ≠ []
  roundTrip : serde.fromStr (serde.toString record) = .ok record

/-- The text of whole lines, and perhaps a last one without its newline. -/
def SerdeJson.text (serde : SerdeJson) (records : List (LiquidationRecord ℚ))
    (last : Option (LiquidationRecord ℚ)) : List Char :=
  unlines (records.map serde.toString) ++ (last.map serde.toString).getD []

variable {serde : SerdeJson} {path : String}

theorem SerdeJson.WritesLine.ne_nil {record : LiquidationRecord ℚ}
    (h : serde.WritesLine record) : serde.toString record ≠ [] := fun hnil =>
  h.nonblank (by rw [hnil]; rfl)

theorem SerdeJson.lines_text {records : List (LiquidationRecord ℚ)}
    {last : Option (LiquidationRecord ℚ)}
    (h : ∀ record ∈ records ++ last.toList, serde.WritesLine record) :
    lines (serde.text records last) = (records ++ last.toList).map serde.toString := by
  have hlines : ∀ line ∈ records.map serde.toString, IsLine line := by
    intro line hline
    obtain ⟨record, hrecord, rfl⟩ := List.mem_map.mp hline
    exact (h record (List.mem_append_left _ hrecord)).isLine
  rw [SerdeJson.text, lines_unlines_append hlines, List.map_append]
  congr 1
  cases last with
  | none => rfl
  | some record =>
    have hrecord := h record (by simp)
    exact hrecord.isLine.lines_self hrecord.ne_nil

theorem SerdeJson.mapM_fromStr {records : List (LiquidationRecord ℚ)}
    (h : ∀ record ∈ records, serde.WritesLine record) :
    (records.map serde.toString).mapM serde.fromStr = .ok records := by
  induction records with
  | nil => rfl
  | cons record records ih =>
    have htail := ih fun record' hmem => h record' (List.mem_cons_of_mem record hmem)
    rw [List.map_cons, List.mapM_cons, (h record List.mem_cons_self).roundTrip, htail]
    rfl

namespace LiquidationLog

/-- A missing file reads like an empty one. -/
theorem openLog_eq (file : Option (List UInt8)) :
    openLog serde file path =
      (readRecords serde path (file.getD [])).map fun records => ⟨records, some path⟩ := by
  cases file with
  | some contents => rfl
  | none =>
    have hempty : decodeUtf8 [] = some [] := decodeUtf8_utf8 []
    simp only [Option.getD_none, readRecords, hempty]
    rfl

/-- **Reading back.**  A file of whole lines, and perhaps one without its
newline, opens to exactly their records. -/
theorem openLog_text (path : String) {file : Option (List UInt8)}
    {records : List (LiquidationRecord ℚ)}
    {last : Option (LiquidationRecord ℚ)}
    (h : ∀ record ∈ records ++ last.toList, serde.WritesLine record)
    (hfile : file.getD [] = utf8 (serde.text records last)) :
    openLog serde file path = .ok ⟨records ++ last.toList, some path⟩ := by
  have hkept : ((records ++ last.toList).map serde.toString).filter
      (fun line => !(trim line).isEmpty) = (records ++ last.toList).map serde.toString := by
    rw [List.filter_eq_self]
    intro line hline
    obtain ⟨record, hrecord, rfl⟩ := List.mem_map.mp hline
    simpa using (h record hrecord).nonblank
  rw [openLog_eq, hfile, readRecords, decodeUtf8_utf8]
  simp only [SerdeJson.lines_text h, hkept, SerdeJson.mapM_fromStr h]
  rfl

end LiquidationLog

/-- A whole line more at the end of whole lines. -/
theorem writeLine_getD {file : Option (List UInt8)} {records : List (LiquidationRecord ℚ)}
    (hfile : file.getD [] = utf8 (serde.text records none)) (record : LiquidationRecord ℚ) :
    (writeLine serde file record .complete).getD [] =
      utf8 (serde.text (records ++ [record]) none) := by
  simp only [writeLine, Option.getD_some, hfile, SerdeJson.lineBytes, SerdeJson.text]
  rw [← utf8_append]
  simp [unlines]

/-! ## A sample record -/

/-- `serde_json` as far as one record is concerned: its JSON, and an error on any
other text. -/
def SerdeJson.only (record : LiquidationRecord ℚ) (json : List Char) : SerdeJson where
  toString _ := json
  fromStr text := if text = json then .ok record else .error "malformed record"

def sampleRecord : LiquidationRecord ℚ :=
  ⟨⟨⟨.kamino, Bytes32.fill 9, Bytes32.fill 1, Bytes32.fill 2, 91 / 100, 1000000, 100⟩, 500000,
    ⟨.kamino, Bytes32.fill 3, 5⟩, ⟨40, 2, 1, 1 / 2, 10, 53 / 2⟩⟩, .landed 101 (259 / 10), 100, 101⟩

/-- 32 times the same one-digit byte. -/
def keyJson (digit : Char) : List Char :=
  '[' :: (List.replicate 31 [digit, ',']).flatten ++ [digit, ']']

/-- The first ten characters of every record. -/
def jsonHead : List Char := ['\x7b', '"', 'r', 'o', 'u', 't', 'e', 'd', '"', ':']

/-- The JSON line of the sample record, behind its first ten characters. -/
def jsonRest : List Char :=
  "\x7b\"candidate\":\x7b\"protocol\":\"Kamino\",\"position_id\":".toList ++ keyJson '9' ++
  ",\"collateral_mint\":".toList ++ keyJson '1' ++ ",\"debt_mint\":".toList ++ keyJson '2' ++
  ",\"health_factor\":0.91,\"close_factor_max_repay\":1000000,\"slot\":100\x7d,".toList ++
  "\"repay_amount\":500000,\"flash_source\":\x7b\"protocol\":\"Kamino\",\"reserve\":".toList ++
  keyJson '3' ++ ",\"fee_bps\":5\x7d,\"expected\":\x7b\"bonus_usd\":40.0,".toList ++
  "\"est_slippage_usd\":2.0,\"flash_fee_usd\":1.0,\"est_cu_cost_usd\":0.5,".toList ++
  "\"bid_tip_usd\":10.0,\"net_usd\":26.5\x7d\x7d,\"outcome\":\x7b\"Landed\":\x7b".toList ++
  "\"slot\":101,\"actual_net_usd\":25.9\x7d\x7d,\"submitted_at_slot\":100,".toList ++
  "\"resolved_at_slot\":101\x7d".toList

def sampleJson : List Char := jsonHead ++ jsonRest

def sampleSerde : SerdeJson := SerdeJson.only sampleRecord sampleJson

theorem isLine_jsonRest : IsLine jsonRest := by
  have hall : jsonRest.all (fun c => c != '\n' && c != '\r') = true := by
    unfold jsonRest
    repeat rw [String.toList_ofList]
    decide +kernel
  exact isLine_iff_all.mpr hall

theorem isLine_jsonHead : IsLine jsonHead := ⟨by decide, by decide⟩

theorem sampleSerde_writesLine : sampleSerde.WritesLine sampleRecord where
  isLine := isLine_jsonHead.append isLine_jsonRest
  nonblank := trim_cons_ne_nil (by decide) _
  roundTrip := by simp [sampleSerde, SerdeJson.only]

/-! ## Appends and restarts -/

inductive LogOp where
  | append (record : LiquidationRecord ℚ)
  | reopen
  deriving DecidableEq, Repr

/-- One path and the log that is open on it. -/
structure LogState where
  file : Option (List UInt8)
  log : LiquidationLog

/-- One operation with a working disk. -/
def LogState.apply (serde : SerdeJson) (path : String) (s : LogState) :
    LogOp → Except StoreError LogState
  | .append record =>
    let (result, file) := s.log.append serde s.file record .complete
    result.map fun log => ⟨file, log⟩
  | .reopen => (LiquidationLog.openLog serde s.file path).map fun log => ⟨s.file, log⟩

/-- The log is opened where there is no file, and used. -/
def runLog (serde : SerdeJson) (path : String) (ops : List LogOp) : Except StoreError LogState := do
  let log ← LiquidationLog.openLog serde none path
  ops.foldlM (LogState.apply serde path) ⟨none, log⟩

/-- The records ever appended, in order. -/
def appended (ops : List LogOp) : List (LiquidationRecord ℚ) :=
  ops.filterMap fun op =>
    match op with
    | .append record => some record
    | .reopen => none

/-- The file holds a line for each record in memory, and nothing else. -/
structure LogState.Holds (serde : SerdeJson) (path : String) (s : LogState)
    (records : List (LiquidationRecord ℚ)) : Prop where
  log : s.log = ⟨records, some path⟩
  file : s.file.getD [] = utf8 (serde.text records none)

/-- One operation succeeds, keeps the invariant and only adds to the file. -/
theorem LogState.Holds.apply {s : LogState} {records : List (LiquidationRecord ℚ)}
    (h : s.Holds serde path records) (op : LogOp)
    (hserde : ∀ record ∈ records ++ appended [op], serde.WritesLine record) :
    ∃ s', s.apply serde path op = .ok s' ∧ s'.Holds serde path (records ++ appended [op]) ∧
      s.file.getD [] <+: s'.file.getD [] := by
  cases op with
  | append record =>
    refine ⟨⟨writeLine serde s.file record .complete, ⟨records ++ [record], some path⟩⟩, ?_, ?_, ?_⟩
    · simp only [LogState.apply, LiquidationLog.append, h.log]
      rfl
    · exact ⟨rfl, writeLine_getD h.file record⟩
    · exact List.prefix_append _ _
  | reopen =>
    have hnone : ∀ record ∈ records ++ (none : Option (LiquidationRecord ℚ)).toList,
        serde.WritesLine record := hserde
    refine ⟨⟨s.file, ⟨records ++ [], some path⟩⟩, ?_, ?_, List.prefix_refl _⟩
    · rw [LogState.apply, LiquidationLog.openLog_text path hnone h.file]
      rfl
    · exact ⟨rfl, by rw [h.file]; simp [appended]⟩

/-- A run from a state that holds `records`. -/
theorem LogState.Holds.run {s : LogState} {records : List (LiquidationRecord ℚ)}
    (h : s.Holds serde path records) (ops : List LogOp)
    (hserde : ∀ record ∈ records ++ appended ops, serde.WritesLine record) :
    ∃ s', ops.foldlM (LogState.apply serde path) s = .ok s' ∧
      s'.Holds serde path (records ++ appended ops) ∧ s.file.getD [] <+: s'.file.getD [] := by
  induction ops generalizing s records with
  | nil => exact ⟨s, rfl, by simpa [appended] using h, List.prefix_refl _⟩
  | cons op ops ih =>
    have hsplit : appended (op :: ops) = appended [op] ++ appended ops := by
      rw [← List.singleton_append, appended, List.filterMap_append]
      rfl
    rw [hsplit, ← List.append_assoc] at hserde ⊢
    obtain ⟨t, hstep, hholds, hreached⟩ := h.apply op fun record hmem =>
      hserde record (List.mem_append_left _ hmem)
    obtain ⟨s', hrun, hfinal, hlater⟩ := ih hholds hserde
    refine ⟨s', ?_, hfinal, hreached.trans hlater⟩
    rw [List.foldlM_cons, hstep]
    exact hrun

/-- **Durability.**  However appends and restarts are interleaved on a path
without a file, every one of them succeeds, the records in memory are all
records ever appended, in order, and bytes once in the file stay as they are. -/
theorem runLog_records (serde : SerdeJson) (path : String) (ops : List LogOp)
    (hserde : ∀ record ∈ appended ops, serde.WritesLine record) :
    ∃ s, runLog serde path ops = .ok s ∧ s.log.records = appended ops ∧
      ∀ before later, ops = before ++ later → ∃ t, runLog serde path before = .ok t ∧
        t.log.records = appended before ∧ t.file.getD [] <+: s.file.getD [] := by
  have hstart : LogState.Holds serde path ⟨none, ⟨[], some path⟩⟩ [] := ⟨rfl, rfl⟩
  obtain ⟨s, hrun, hholds, -⟩ := hstart.run ops hserde
  refine ⟨s, hrun, by rw [hholds.log]; rfl, ?_⟩
  rintro before later rfl
  have happended : appended (before ++ later) = appended before ++ appended later :=
    List.filterMap_append
  rw [happended] at hserde
  obtain ⟨t, hbefore, ht, -⟩ := hstart.run before fun record hmem =>
    hserde record (List.mem_append_left _ hmem)
  obtain ⟨s', hlater, -, hreached⟩ := ht.run later hserde
  rw [List.foldlM_append, hbefore] at hrun
  obtain rfl : s' = s := Except.ok.inj (hlater.symm.trans hrun)
  exact ⟨t, hbefore, by rw [ht.log]; rfl, hreached⟩

/-- The sample record, appended twice with a restart in between. -/
theorem runLog_records_sample :
    (∀ record ∈ appended [.append sampleRecord, .reopen, .append sampleRecord],
      sampleSerde.WritesLine record) ∧
    ∃ s, runLog sampleSerde "data/liquidation_log.jsonl"
      [.append sampleRecord, .reopen, .append sampleRecord] = .ok s ∧
        s.log.records = [sampleRecord, sampleRecord] := by
  have hserde : ∀ record ∈ appended [.append sampleRecord, .reopen, .append sampleRecord],
      sampleSerde.WritesLine record := by
    intro record hmem
    obtain rfl : record = sampleRecord := by simpa [appended] using hmem
    exact sampleSerde_writesLine
  obtain ⟨s, hrun, hrecords, -⟩ := runLog_records sampleSerde "data/liquidation_log.jsonl" _ hserde
  exact ⟨hserde, s, hrun, hrecords⟩

/-! ## Appends that are cut off -/

/-- One call of `append`, or one record received by the background writer. -/
structure Attempt where
  record : LiquidationRecord ℚ
  write : Write
  deriving DecidableEq, Repr

/-- The file after a sequence of attempts on it. -/
def fileFrom (serde : SerdeJson) (file : Option (List UInt8)) (attempts : List Attempt) :
    Option (List UInt8) :=
  attempts.foldl (fun file attempt => writeLine serde file attempt.record attempt.write) file

/-- The records whose append completed. -/
def completed (attempts : List Attempt) : List (LiquidationRecord ℚ) :=
  attempts.filterMap fun attempt =>
    match attempt.write with
    | .complete => some attempt.record
    | .cutOff _ => none

/-- The log opens after every prefix of the attempts, with every record whose
append had completed by then, in order. -/
def CrashSafe (serde : SerdeJson) (path : String) (attempts : List Attempt) : Prop :=
  ∀ reached, reached <+: attempts →
    ∃ log, LiquidationLog.openLog serde (fileFrom serde none reached) path = .ok log ∧
      (completed reached).Sublist log.records

/-- Every interrupted append left nothing in the file, or its whole line, or its
whole line but the newline and nothing was written after it. -/
def Intact (serde : SerdeJson) (attempts : List Attempt) : Prop :=
  ∀ before attempt later written, attempts = before ++ attempt :: later →
    attempt.write = .cutOff written →
    written = 0 ∨ (serde.lineBytes attempt.record).length ≤ written ∨
      written + 1 = (serde.lineBytes attempt.record).length ∧ ∀ b ∈ later, b.write = .cutOff 0

theorem Intact.tail {attempt : Attempt} {attempts : List Attempt}
    (h : Intact serde (attempt :: attempts)) : Intact serde attempts := by
  rintro before b later written rfl
  exact h (attempt :: before) b later written rfl

theorem Intact.cons {attempt : Attempt} {attempts : List Attempt}
    (hhead : ∀ written, attempt.write = .cutOff written →
      written = 0 ∨ (serde.lineBytes attempt.record).length ≤ written ∨
        written + 1 = (serde.lineBytes attempt.record).length ∧
          ∀ b ∈ attempts, b.write = .cutOff 0)
    (h : Intact serde attempts) : Intact serde (attempt :: attempts) := by
  intro before b later written hsplit hwrite
  rcases List.cons_eq_append_iff.mp hsplit with ⟨rfl, hcons⟩ | ⟨before', rfl, hattempts⟩
  · obtain ⟨rfl, rfl⟩ := List.cons.inj hcons
    exact hhead written hwrite
  · exact h before' b later written hattempts hwrite

theorem Intact.cons_cutOff {attempt : Attempt} {attempts : List Attempt} {written : Nat}
    (hwrite : attempt.write = .cutOff written)
    (hhead : written = 0 ∨ (serde.lineBytes attempt.record).length ≤ written ∨
      written + 1 = (serde.lineBytes attempt.record).length ∧
        ∀ b ∈ attempts, b.write = .cutOff 0)
    (h : Intact serde attempts) : Intact serde (attempt :: attempts) := by
  refine Intact.cons (fun written' hwrite' => ?_) h
  rw [hwrite] at hwrite'
  cases hwrite'
  exact hhead

theorem Intact.of_forall_zero {attempts : List Attempt}
    (h : ∀ attempt ∈ attempts, attempt.write = .cutOff 0) : Intact serde attempts := by
  rintro before attempt later written rfl hwrite
  rw [h attempt (by simp)] at hwrite
  cases hwrite
  exact Or.inl rfl

theorem Intact.mono {reached attempts : List Attempt} (h : Intact serde attempts)
    (hreached : reached <+: attempts) : Intact serde reached := by
  obtain ⟨rest, rfl⟩ := hreached
  rintro before attempt later written rfl hwrite
  obtain hnone | hall | ⟨hbut, hlater⟩ :=
    h before attempt (later ++ rest) written (by simp) hwrite
  · exact Or.inl hnone
  · exact Or.inr (Or.inl hall)
  · exact Or.inr (Or.inr ⟨hbut, fun b hb => hlater b (List.mem_append_left _ hb)⟩)

theorem writeLine_cutOff_zero (file : Option (List UInt8)) (record : LiquidationRecord ℚ) :
    (writeLine serde file record (.cutOff 0)).getD [] = file.getD [] := by
  simp [writeLine]

theorem writeLine_cutOff_all {file : Option (List UInt8)} {record : LiquidationRecord ℚ}
    {written : Nat} (h : (serde.lineBytes record).length ≤ written) :
    writeLine serde file record (.cutOff written) = writeLine serde file record .complete := by
  simp [writeLine, List.take_of_length_le h]

/-- All of a line but its newline, at the end of whole lines. -/
theorem writeLine_cutOff_newline {file : Option (List UInt8)}
    {records : List (LiquidationRecord ℚ)} {record : LiquidationRecord ℚ} {written : Nat}
    (hfile : file.getD [] = utf8 (serde.text records none))
    (h : written + 1 = (serde.lineBytes record).length) :
    (writeLine serde file record (.cutOff written)).getD [] =
      utf8 (serde.text records (some record)) := by
  have hbytes : serde.lineBytes record = utf8 (serde.toString record) ++ [10] := utf8_append _ _
  have htake : (serde.lineBytes record).take written = utf8 (serde.toString record) := by
    rw [hbytes, List.length_append] at h
    rw [hbytes]
    exact List.take_left' (by simpa using h.symm)
  simp only [writeLine, Option.getD_some, hfile, htake, SerdeJson.text]
  rw [← utf8_append]
  simp

theorem fileFrom_of_forall_zero {attempts : List Attempt}
    (h : ∀ attempt ∈ attempts, attempt.write = .cutOff 0) (file : Option (List UInt8)) :
    (fileFrom serde file attempts).getD [] = file.getD [] ∧ completed attempts = [] := by
  induction attempts generalizing file with
  | nil => exact ⟨rfl, rfl⟩
  | cons attempt attempts ih =>
    have hzero := h attempt List.mem_cons_self
    obtain ⟨hfile, hcompleted⟩ := ih (fun b hb => h b (List.mem_cons_of_mem attempt hb))
      (writeLine serde file attempt.record attempt.write)
    constructor
    · refine hfile.trans ?_
      rw [hzero]
      exact writeLine_cutOff_zero file attempt.record
    · rw [completed, List.filterMap_cons, hzero]
      exact hcompleted

/-- From whole lines on, an intact sequence of attempts leaves whole lines and
perhaps one without its newline, with a line for every completed append. -/
theorem Intact.text_fileFrom {attempts : List Attempt} (h : Intact serde attempts)
    (hserde : ∀ attempt ∈ attempts, serde.WritesLine attempt.record)
    {file : Option (List UInt8)} {records : List (LiquidationRecord ℚ)}
    (hrecords : ∀ record ∈ records, serde.WritesLine record)
    (hfile : file.getD [] = utf8 (serde.text records none)) :
    ∃ whole last, (fileFrom serde file attempts).getD [] = utf8 (serde.text whole last) ∧
      (records ++ completed attempts).Sublist (whole ++ last.toList) ∧
      ∀ record ∈ whole ++ last.toList, serde.WritesLine record := by
  induction attempts generalizing file records with
  | nil => exact ⟨records, none, hfile, List.Sublist.refl _, by simpa using hrecords⟩
  | cons attempt attempts ih =>
    have hattempt := hserde attempt List.mem_cons_self
    have htail := fun b hb => hserde b (List.mem_cons_of_mem attempt hb)
    have hmore : ∀ record ∈ records ++ [attempt.record], serde.WritesLine record := by
      intro record hmem
      rcases List.mem_append.mp hmem with hmem | hmem
      · exact hrecords record hmem
      · rw [List.mem_singleton.mp hmem]
        exact hattempt
    cases hwrite : attempt.write with
    | complete =>
      obtain ⟨whole, last, htext, hsub, hlines⟩ := ih h.tail htail hmore (writeLine_getD hfile _)
      refine ⟨whole, last, ?_, ?_, hlines⟩
      · rw [fileFrom, List.foldl_cons, hwrite]
        exact htext
      · simpa [completed, hwrite] using hsub
    | cutOff written =>
      have hcompleted : completed (attempt :: attempts) = completed attempts := by
        simp [completed, hwrite]
      rw [fileFrom, List.foldl_cons, hwrite, hcompleted]
      obtain rfl | hall | ⟨hbut, hlater⟩ := h [] attempt attempts written rfl hwrite
      · exact ih h.tail htail hrecords ((writeLine_cutOff_zero file _).trans hfile)
      · rw [writeLine_cutOff_all hall]
        obtain ⟨whole, last, htext, hsub, hlines⟩ := ih h.tail htail hmore (writeLine_getD hfile _)
        refine ⟨whole, last, htext, List.Sublist.trans ?_ hsub, hlines⟩
        exact (List.sublist_append_left records _).append (List.Sublist.refl _)
      · obtain ⟨hrest, hnone⟩ := fileFrom_of_forall_zero hlater
          (writeLine serde file attempt.record (.cutOff written))
        refine ⟨records, some attempt.record, hrest.trans (writeLine_cutOff_newline hfile hbut),
          ?_, hmore⟩
        rw [hnone, List.append_nil]
        exact List.sublist_append_left records _

/-- Intact attempts leave a log that opens. -/
theorem Intact.crashSafe {attempts : List Attempt} (h : Intact serde attempts) (path : String)
    (hserde : ∀ attempt ∈ attempts, serde.WritesLine attempt.record) :
    CrashSafe serde path attempts := by
  intro reached hreached
  have hstart : (none : Option (List UInt8)).getD [] = utf8 (serde.text [] none) := rfl
  obtain ⟨whole, last, htext, hsub, hlines⟩ := (h.mono hreached).text_fileFrom
    (fun attempt hmem => hserde attempt (hreached.subset hmem)) (by simp) hstart
  exact ⟨_, LiquidationLog.openLog_text path hlines htext, hsub⟩

/-! ## Torn lines -/

/-- What decides that a torn line is not read: the JSON of a record starts with
its brace, no part of it is a document yet, and nothing may follow it. -/
structure SerdeJson.RejectsTorn (serde : SerdeJson) (record : LiquidationRecord ℚ) : Prop where
  starts : ∀ c ∈ (serde.toString record).head?, isWhitespace c = false
  unfinished : ∀ part rest, serde.toString record = part ++ rest → part ≠ [] → rest ≠ [] →
    ∃ e, serde.fromStr part = .error e
  trailing : ∀ rest, trim rest ≠ [] → ∃ e, serde.fromStr (serde.toString record ++ rest) = .error e

/-- One line that does not decode makes the log unreadable. -/
theorem openLog_ne_ok {contents : List UInt8} {text line : List Char}
    (htext : decodeUtf8 contents = some text) (hline : line ∈ lines text)
    (hblank : trim line ≠ []) {e : String} (herror : serde.fromStr line = .error e)
    (log : LiquidationLog) : LiquidationLog.openLog serde (some contents) path ≠ .ok log := by
  have hmem : line ∈ (lines text).filter fun line => !(trim line).isEmpty :=
    List.mem_filter.mpr ⟨hline, by simpa using hblank⟩
  obtain ⟨e', hfails⟩ := EarlyExit.exists_mapM_eq_error hmem herror
  simp only [LiquidationLog.openLog, LiquidationLog.readRecords, htext, hfails]
  intro h
  cases h

/-- The part of a record's line that `written` bytes make up, as text. -/
theorem exists_part_of_take {record : LiquidationRecord ℚ} {part : List Char} {written : Nat}
    (h : utf8 part = (serde.lineBytes record).take written) (hpos : 0 < written) :
    part ≠ [] ∧ ∃ rest, serde.toString record ++ ['\n'] = part ++ rest ∧
      utf8 rest = (serde.lineBytes record).drop written := by
  have hsplit : utf8 (serde.toString record ++ ['\n']) =
      utf8 part ++ (serde.lineBytes record).drop written := by
    rw [h, List.take_append_drop]
    rfl
  constructor
  · rintro rfl
    have hnil : (serde.lineBytes record).take written = [] := h.symm
    rw [List.take_eq_nil_iff] at hnil
    rcases hnil with hzero | hnil
    · omega
    · have hlen := congrArg List.length hnil
      rw [show serde.lineBytes record = utf8 (serde.toString record) ++ [10] from utf8_append _ _]
        at hlen
      simp at hlen
  · obtain ⟨rest, hrest, hbytes⟩ := exists_append_of_utf8 hsplit
    exact ⟨rest, hrest, hbytes⟩

/-- A line that starts with a part of a record's JSON is not blank. -/
theorem SerdeJson.RejectsTorn.trim_ne_nil {record : LiquidationRecord ℚ}
    (h : serde.RejectsTorn record) {part more : List Char} (hpart : part ≠ [])
    (hsplit : serde.toString record = part ++ more) (rest : List Char) :
    trim (part ++ rest) ≠ [] := by
  cases part with
  | nil => exact absurd rfl hpart
  | cons c part =>
    refine trim_cons_ne_nil (h.starts c ?_) (part ++ rest)
    rw [hsplit]
    rfl

/-- What a reader sees of the part of a line that was written, and the rest of
the JSON, which is cut off. -/
theorem exists_torn_line {records : List (LiquidationRecord ℚ)}
    {last : Option (LiquidationRecord ℚ)} {record : LiquidationRecord ℚ} {written : Nat}
    {part rest : List Char}
    (hlines : ∀ r ∈ record :: (records ++ last.toList), serde.WritesLine r)
    (hpart : last.isSome ∨ written + 1 < (serde.lineBytes record).length) (hne : part ≠ [])
    (hsplit : serde.toString record ++ ['\n'] = part ++ rest)
    (hrest : utf8 rest = (serde.lineBytes record).drop written) :
    ∃ seen more, seen ≠ [] ∧ serde.toString record = seen ++ more ∧ (last = none → more ≠ []) ∧
      (last.map serde.toString).getD [] ++ seen ∈ lines (serde.text records last ++ part) := by
  have hrecord := hlines record List.mem_cons_self
  have hwhole : ∀ line ∈ records.map serde.toString, IsLine line := by
    intro line hline
    obtain ⟨r, hr, rfl⟩ := List.mem_map.mp hline
    exact (hlines r (by simp [hr])).isLine
  have hlastLine : IsLine ((last.map serde.toString).getD []) := by
    cases last with
    | none => exact ⟨List.not_mem_nil, List.not_mem_nil⟩
    | some r => exact (hlines r (by simp)).isLine
  obtain ⟨rfl, rfl⟩ | ⟨more, hjson, rfl⟩ := part_of_line hsplit
  · have hall : (serde.lineBytes record).length ≤ written := List.drop_eq_nil_iff.mp hrest.symm
    refine ⟨serde.toString record, [], hrecord.ne_nil, by simp, ?_, ?_⟩
    · rintro rfl
      rcases hpart with hsome | hlt
      · cases hsome
      · omega
    · rw [SerdeJson.text, List.append_assoc, ← List.append_assoc _ (serde.toString record)]
      exact ((hlastLine.append hrecord.isLine).mem_lines hwhole (by simp [hrecord.ne_nil])).2
  · have hpartLine : IsLine part := IsLine.of_append (hjson ▸ hrecord.isLine)
    refine ⟨part, more, hne, hjson, ?_, ?_⟩
    · rintro rfl rfl
      rcases hpart with hsome | hlt
      · cases hsome
      · have hlen := congrArg List.length hrest
        have hnewline : (utf8 ([] ++ ['\n'])).length = 1 := rfl
        rw [List.length_drop, hnewline] at hlen
        omega
    · rw [SerdeJson.text, List.append_assoc]
      exact ((hlastLine.append hpartLine).mem_lines hwhole (by simp [hne])).1

/-- A part of a line, behind whole lines or behind a line without its newline,
makes the log unreadable. -/
theorem openLog_ne_ok_of_part {file : Option (List UInt8)} {records : List (LiquidationRecord ℚ)}
    {last : Option (LiquidationRecord ℚ)} {record : LiquidationRecord ℚ} {written : Nat}
    (hlines : ∀ r ∈ record :: (records ++ last.toList), serde.WritesLine r)
    (htorn : ∀ r ∈ record :: last.toList, serde.RejectsTorn r)
    (hfile : file.getD [] = utf8 (serde.text records last)) (hpos : 0 < written)
    (hpart : last.isSome ∨ written + 1 < (serde.lineBytes record).length)
    (log : LiquidationLog) :
    LiquidationLog.openLog serde
      (some (file.getD [] ++ (serde.lineBytes record).take written)) path ≠ .ok log := by
  cases hdecode : decodeUtf8 (file.getD [] ++ (serde.lineBytes record).take written) with
  | none =>
    simp only [LiquidationLog.openLog, LiquidationLog.readRecords, hdecode]
    intro h
    cases h
  | some text =>
    have hbytes := utf8_of_decodeUtf8 hdecode
    rw [hfile] at hbytes
    obtain ⟨part, rfl, hpartBytes⟩ := exists_append_of_utf8 hbytes
    obtain ⟨hne, rest, hsplit, hrest⟩ := exists_part_of_take hpartBytes hpos
    obtain ⟨seen, more, hseen, hjson, hmore, hmem⟩ := exists_torn_line hlines hpart hne hsplit hrest
    have htornRecord := htorn record List.mem_cons_self
    have hblank : trim seen ≠ [] := by simpa using htornRecord.trim_ne_nil hseen hjson []
    cases last with
    | none =>
      obtain ⟨e, herror⟩ := htornRecord.unfinished seen more hjson hseen (hmore rfl)
      exact openLog_ne_ok hdecode hmem hblank herror log
    | some r =>
      obtain ⟨e, herror⟩ := (htorn r (by simp)).trailing seen hblank
      have hnonblank := (htorn r (by simp)).trim_ne_nil (hlines r (by simp)).ne_nil
        (List.append_nil _).symm seen
      exact openLog_ne_ok hdecode hmem hnonblank herror log

/-- The bytes of an attempt that writes something are a nonempty part of its line. -/
theorem writeLine_eq_take {write : Write} (hwrite : write ≠ .cutOff 0)
    (file : Option (List UInt8)) (record : LiquidationRecord ℚ) :
    ∃ written, 0 < written ∧ writeLine serde file record write =
      some (file.getD [] ++ (serde.lineBytes record).take written) := by
  cases write with
  | complete => exact ⟨(serde.lineBytes record).length + 1, Nat.succ_pos _, by
      rw [List.take_of_length_le (Nat.le_succ _)]; rfl⟩
  | cutOff written =>
    refine ⟨written, Nat.pos_of_ne_zero ?_, rfl⟩
    rintro rfl
    exact hwrite rfl

/-- The log opens after every prefix of further attempts. -/
def OpensThroughout (serde : SerdeJson) (path : String) (file : Option (List UInt8))
    (attempts : List Attempt) : Prop :=
  ∀ reached, reached <+: attempts →
    ∃ log, LiquidationLog.openLog serde (fileFrom serde file reached) path = .ok log

theorem OpensThroughout.tail {file : Option (List UInt8)} {attempt : Attempt}
    {attempts : List Attempt} (h : OpensThroughout serde path file (attempt :: attempts)) :
    OpensThroughout serde path (writeLine serde file attempt.record attempt.write) attempts :=
  fun reached hreached => h (attempt :: reached) (List.cons_prefix_cons.mpr ⟨rfl, hreached⟩)

/-- Behind a line without its newline, a log that keeps opening is one that
nothing is written to. -/
theorem OpensThroughout.forall_zero {attempts : List Attempt} {file : Option (List UInt8)}
    {records : List (LiquidationRecord ℚ)} {last : LiquidationRecord ℚ}
    (h : OpensThroughout serde path file attempts)
    (hfile : file.getD [] = utf8 (serde.text records (some last)))
    (hlines : ∀ r ∈ records ++ [last], serde.WritesLine r) (hlast : serde.RejectsTorn last)
    (hserde : ∀ attempt ∈ attempts,
      serde.WritesLine attempt.record ∧ serde.RejectsTorn attempt.record) :
    ∀ attempt ∈ attempts, attempt.write = .cutOff 0 := by
  induction attempts generalizing file with
  | nil => simp
  | cons attempt attempts ih =>
    have hattempt := hserde attempt List.mem_cons_self
    have hzero : attempt.write = .cutOff 0 := by
      by_contra hwrite
      obtain ⟨written, hpos, hfile'⟩ := writeLine_eq_take hwrite file attempt.record
      obtain ⟨log, hopen⟩ := h [attempt] ⟨attempts, rfl⟩
      rw [fileFrom, List.foldl_cons, List.foldl_nil, hfile'] at hopen
      refine openLog_ne_ok_of_part ?_ ?_ hfile hpos (Or.inl rfl) log hopen
      · exact List.forall_mem_cons.mpr ⟨hattempt.1, hlines⟩
      · exact List.forall_mem_cons.mpr ⟨hattempt.2, by simpa using hlast⟩
    have hfile' : (writeLine serde file attempt.record attempt.write).getD [] =
        utf8 (serde.text records (some last)) := by
      rw [hzero, writeLine_cutOff_zero]
      exact hfile
    refine List.forall_mem_cons.mpr ⟨hzero, ih h.tail hfile' fun b hb => ?_⟩
    exact hserde b (List.mem_cons_of_mem attempt hb)

/-- From whole lines on, a log that opens after an interrupted append has nothing
of its line, all of it, or all but the newline. -/
theorem OpensThroughout.cutOff_cases {attempt : Attempt} {attempts : List Attempt}
    {file : Option (List UInt8)} {records : List (LiquidationRecord ℚ)} {written : Nat}
    (h : OpensThroughout serde path file (attempt :: attempts))
    (hfile : file.getD [] = utf8 (serde.text records none))
    (hlines : ∀ r ∈ attempt.record :: records, serde.WritesLine r)
    (htorn : serde.RejectsTorn attempt.record) (hwrite : attempt.write = .cutOff written) :
    written = 0 ∨ (serde.lineBytes attempt.record).length ≤ written ∨
      written + 1 = (serde.lineBytes attempt.record).length := by
  by_contra hpart
  have hpos : 0 < written := by omega
  obtain ⟨log, hopen⟩ := h [attempt] ⟨attempts, rfl⟩
  rw [fileFrom, List.foldl_cons, List.foldl_nil, hwrite] at hopen
  refine openLog_ne_ok_of_part ?_ ?_ hfile hpos (Or.inr (by omega)) log hopen
  · simpa using hlines
  · simpa using htorn

/-- From whole lines on, a log that keeps opening saw intact attempts only. -/
theorem OpensThroughout.intact {attempts : List Attempt} {file : Option (List UInt8)}
    {records : List (LiquidationRecord ℚ)}
    (h : OpensThroughout serde path file attempts)
    (hfile : file.getD [] = utf8 (serde.text records none))
    (hlines : ∀ r ∈ records, serde.WritesLine r)
    (hserde : ∀ attempt ∈ attempts,
      serde.WritesLine attempt.record ∧ serde.RejectsTorn attempt.record) :
    Intact serde attempts := by
  induction attempts generalizing file records with
  | nil =>
    intro before attempt later written hsplit
    simp at hsplit
  | cons attempt attempts ih =>
    obtain ⟨hattempt, htorn⟩ := hserde attempt List.mem_cons_self
    have htail := fun b hb => hserde b (List.mem_cons_of_mem attempt hb)
    have hmore : ∀ r ∈ records ++ [attempt.record], serde.WritesLine r := by
      simpa [or_imp, forall_and] using ⟨hlines, hattempt⟩
    have hrest := h.tail
    cases hwrite : attempt.write with
    | complete =>
      rw [hwrite] at hrest
      refine Intact.cons (fun written heq => ?_) (ih hrest (writeLine_getD hfile _) hmore htail)
      rw [hwrite] at heq
      cases heq
    | cutOff written =>
      rw [hwrite] at hrest
      have hhead := h.cutOff_cases hfile (List.forall_mem_cons.mpr ⟨hattempt, hlines⟩) htorn hwrite
      rcases hhead with rfl | hall | hbut
      · exact Intact.cons_cutOff hwrite (Or.inl rfl)
          (ih hrest ((writeLine_cutOff_zero file _).trans hfile) hlines htail)
      · rw [writeLine_cutOff_all hall] at hrest
        exact Intact.cons_cutOff hwrite (Or.inr (Or.inl hall))
          (ih hrest (writeLine_getD hfile _) hmore htail)
      · have hzero := hrest.forall_zero (writeLine_cutOff_newline hfile hbut) hmore htorn htail
        exact Intact.cons_cutOff hwrite (Or.inr (Or.inr ⟨hbut, hzero⟩))
          (Intact.of_forall_zero hzero)

/-- **When the log is crash safe.**  It opens at every point of a sequence of
attempts with everything that was completed, if and only if every interrupted
append left nothing in the file or its whole line, or its whole line but the
newline and nothing was written after it. -/
theorem crashSafe_iff (serde : SerdeJson) (path : String) (attempts : List Attempt)
    (hserde : ∀ attempt ∈ attempts,
      serde.WritesLine attempt.record ∧ serde.RejectsTorn attempt.record) :
    CrashSafe serde path attempts ↔ Intact serde attempts := by
  constructor
  · intro h
    have hopens : OpensThroughout serde path none attempts := by
      intro reached hreached
      obtain ⟨log, hopen, -⟩ := h reached hreached
      exact ⟨log, hopen⟩
    have hstart : (none : Option (List UInt8)).getD [] = utf8 (serde.text [] none) := rfl
    exact hopens.intact hstart (by simp) hserde
  · intro h
    exact h.crashSafe path fun attempt hmem => (hserde attempt hmem).1

theorem SerdeJson.only_fromStr_ne (record : LiquidationRecord ℚ) {json text : List Char}
    (h : text.length ≠ json.length) : ∃ e, (SerdeJson.only record json).fromStr text = .error e :=
  ⟨_, if_neg fun heq => h (congrArg List.length heq)⟩

/-- A part of the sample line is rejected, and so is anything behind it. -/
theorem sampleSerde_rejectsTorn : sampleSerde.RejectsTorn sampleRecord := by
  refine ⟨?_, ?_, ?_⟩
  · intro c hc
    obtain rfl : '\x7b' = c := Option.some.inj hc
    decide
  · intro part rest hsplit _ hrest
    have hlen := congrArg List.length (show sampleJson = part ++ rest from hsplit)
    have hpos := List.length_pos_of_ne_nil hrest
    rw [List.length_append] at hlen
    exact SerdeJson.only_fromStr_ne sampleRecord (by omega)
  · intro rest hrest
    have hpos : 0 < rest.length := List.length_pos_of_ne_nil fun hnil => hrest (by rw [hnil]; rfl)
    refine SerdeJson.only_fromStr_ne sampleRecord ?_
    rw [List.length_append]
    show sampleJson.length + _ ≠ sampleJson.length
    omega

/-- A write error that leaves nothing in the file does no harm. -/
theorem crashSafe_iff_sample :
    let attempts : List Attempt :=
      [⟨sampleRecord, .complete⟩, ⟨sampleRecord, .cutOff 0⟩, ⟨sampleRecord, .complete⟩]
    (∀ attempt ∈ attempts,
      sampleSerde.WritesLine attempt.record ∧ sampleSerde.RejectsTorn attempt.record) ∧
    CrashSafe sampleSerde "data/liquidation_log.jsonl" attempts := by
  intro attempts
  have hserde : ∀ attempt ∈ attempts,
      sampleSerde.WritesLine attempt.record ∧ sampleSerde.RejectsTorn attempt.record := by
    intro attempt hmem
    obtain rfl | rfl | rfl : attempt = ⟨sampleRecord, .complete⟩ ∨
        attempt = ⟨sampleRecord, .cutOff 0⟩ ∨ attempt = ⟨sampleRecord, .complete⟩ := by
      simpa [attempts] using hmem
    all_goals exact ⟨sampleSerde_writesLine, sampleSerde_rejectsTorn⟩
  refine ⟨hserde, (crashSafe_iff _ _ _ hserde).mpr ?_⟩
  intro before attempt later written hsplit hwrite
  have hmem : attempt ∈ attempts := by simp [hsplit]
  have hzero : ∀ attempt ∈ attempts, ∀ written, attempt.write = .cutOff written →
      written = 0 := by
    simp [attempts]
  exact Or.inl (hzero attempt hmem written hwrite)

/-- A second append that stops after the part `head` of its line, and a third. -/
theorem openLog_only_ne_ok (record : LiquidationRecord ℚ) {head rest : List Char}
    (hhead : IsLine head) (hrest : IsLine rest) (hne : head ≠ [])
    (hblank : ∀ t, trim (head ++ t) ≠ [])
    (log : LiquidationLog) :
    let serde := SerdeJson.only record (head ++ rest)
    LiquidationLog.openLog serde (fileFrom serde none [⟨record, .complete⟩,
      ⟨record, .cutOff (utf8 head).length⟩, ⟨record, .complete⟩]) path ≠ .ok log := by
  intro serde
  let json := head ++ rest
  have hpart : (serde.lineBytes record).take (utf8 head).length = utf8 head := by
    have hsplit : serde.lineBytes record = utf8 head ++ utf8 (rest ++ ['\n']) := by
      rw [← utf8_append, ← List.append_assoc]
      rfl
    rw [hsplit]
    exact List.take_left' rfl
  have hfile : fileFrom serde none [⟨record, .complete⟩, ⟨record, .cutOff (utf8 head).length⟩,
      ⟨record, .complete⟩] = some (utf8 (unlines [json, head ++ json])) := by
    simp only [fileFrom, List.foldl_cons, List.foldl_nil, writeLine, hpart, Option.getD_none,
      Option.getD_some, List.nil_append]
    show some (utf8 (json ++ ['\n']) ++ utf8 head ++ utf8 (json ++ ['\n'])) = _
    rw [← utf8_append, ← utf8_append]
    simp [unlines]
  have hline : IsLine json := hhead.append hrest
  have hmem : head ++ json ∈ lines (unlines [json, head ++ json]) := by
    rw [lines_unlines (by simpa using ⟨hline, hhead.append hline⟩)]
    simp
  have hlen : (head ++ json).length ≠ json.length := by
    have hpos := List.length_pos_of_ne_nil hne
    rw [List.length_append]
    omega
  obtain ⟨e, herror⟩ := SerdeJson.only_fromStr_ne record hlen
  rw [hfile]
  exact openLog_ne_ok (decodeUtf8_utf8 _) hmem (hblank json) herror log

/-- Ten bytes of the second record are left in the file.  The third append
completes, behind them, and the log never opens again. -/
theorem torn_line_loses_log :
    let attempts : List Attempt :=
      [⟨sampleRecord, .complete⟩, ⟨sampleRecord, .cutOff 10⟩, ⟨sampleRecord, .complete⟩]
    completed attempts = [sampleRecord, sampleRecord] ∧
      (∀ log, LiquidationLog.openLog sampleSerde (fileFrom sampleSerde none attempts)
        "data/liquidation_log.jsonl" ≠ .ok log) ∧
      ¬ CrashSafe sampleSerde "data/liquidation_log.jsonl" attempts := by
  intro attempts
  have hopen : ∀ log, LiquidationLog.openLog sampleSerde (fileFrom sampleSerde none attempts)
      "data/liquidation_log.jsonl" ≠ .ok log := fun log =>
    openLog_only_ne_ok sampleRecord isLine_jsonHead isLine_jsonRest (List.cons_ne_nil _ _)
      (fun t => trim_cons_ne_nil (by decide) _) log
  refine ⟨rfl, hopen, fun hsafe => ?_⟩
  obtain ⟨log, hok, -⟩ := hsafe attempts (List.prefix_refl _)
  exact hopen log hok

end Gyrfalcon
