import Gyrfalcon.Lib.Channel
import Gyrfalcon.LiquidationLog
import Gyrfalcon.LockOut

/-!
# Dashboard and audit log

The daemon loop books an outcome on the dashboard and hands its record to the
background writer over a bounded channel, without waiting and without looking
at the result.  Here the loop and the writer take steps in any order; the two
views of the past agree as long as no outcome that counts meets a full channel.
-/

namespace Gyrfalcon

/-! ## The two parties -/

/-- The buffer size that `main` gives to `AsyncLiquidationWriter::spawn`. -/
def asyncLogCapacity : Nat := 4096

abbrev AsyncLog := Channel.Bounded (LiquidationRecord ℚ) asyncLogCapacity

/-- `try_record`. -/
def tryRecord (log : AsyncLog) (record : LiquidationRecord ℚ) : Except StoreError AsyncLog :=
  match log.trySend record with
  | some log => .ok log
  | none => .error (.capacityExceeded "Async log channel full: no available capacity")

structure AuditState where
  loop : LoopState
  log : AsyncLog
  file : Option (List UInt8)

/-- An iteration of the loop, or a record taken by the writer; `none` where the
writer cannot open the file. -/
inductive AuditEvent where
  | loop (item : FeedItem)
  | writer (write : Option Write)
  deriving DecidableEq, Repr

namespace Daemon

variable (d : Daemon) (serde : SerdeJson)

/-- One step of either party. -/
def audit (s : AuditState) : AuditEvent → AuditState
  | .loop item =>
    let (loop, submission) := d.step s.loop item
    match submission with
    | none => { s with loop := loop }
    | some submission =>
      -- the result of `try_record` is ignored: a full channel drops the record
      match tryRecord s.log submission.record with
      | .ok log => { s with loop := loop, log := log }
      | .error _ => { s with loop := loop }
  | .writer write =>
    match s.log.recv with
    | none => s
    | some (record, log) =>
      { s with
        log := log
        file :=
          match write with
          | none => s.file
          | some write => writeLine serde s.file record write }

def audited (router : MultiSourceRouter) (events : List AuditEvent) : AuditState :=
  events.foldl (d.audit serde) ⟨d.start router, Channel.Bounded.empty, none⟩

end Daemon

/-! ## Agreement -/

def SubmitOutcome.isLanded : SubmitOutcome ℚ → Bool
  | .landed _ _ => true
  | _ => false

def SubmitOutcome.isReverted : SubmitOutcome ℚ → Bool
  | .reverted _ => true
  | _ => false

def SubmitOutcome.landedNetUsd : SubmitOutcome ℚ → Option ℚ
  | .landed _ actualNetUsd => some actualNetUsd
  | _ => none

/-- The books as the records tell them. -/
def booksOf (records : List (LiquidationRecord ℚ)) : Books where
  landed := records.countP fun record => record.outcome.isLanded
  reverted := records.countP fun record => record.outcome.isReverted
  netUsd := (records.filterMap fun record => record.outcome.landedNetUsd).sum

/-- The dashboard says what the records accepted by the channel say. -/
def AuditState.Agrees (s : AuditState) : Prop :=
  s.loop.dashboard.books = booksOf s.log.accepted

theorem booksOf_concat (records : List (LiquidationRecord ℚ)) (record : LiquidationRecord ℚ) :
    booksOf (records ++ [record]) = (booksOf records).settle record.outcome := by
  cases houtcome : record.outcome <;>
    simp [booksOf, Books.settle, houtcome, SubmitOutcome.isLanded, SubmitOutcome.isReverted,
      SubmitOutcome.landedNetUsd]

theorem booksOf_landed_le (records : List (LiquidationRecord ℚ)) :
    (booksOf records).landed ≤ records.length := List.countP_le_length

theorem Books.settle_eq_self_iff (books : Books) (outcome : SubmitOutcome ℚ) :
    books.settle outcome = books ↔ outcome = .notIncluded := by
  cases outcome with
  | landed slot net =>
    simp only [reduceCtorEq, iff_false]
    intro h
    have := congrArg Books.landed h
    simp [Books.settle] at this
  | reverted reason =>
    simp only [reduceCtorEq, iff_false]
    intro h
    have := congrArg Books.reverted h
    simp [Books.settle] at this
  | notIncluded => simp [Books.settle]

namespace Daemon

variable (d : Daemon)

/-- An outcome that counts is resolved while the channel is full. -/
def Overflows (s : AuditState) : AuditEvent → Prop
  | .loop item => s.log.queue.length = asyncLogCapacity ∧ item.answer ≠ .notIncluded ∧
      ∃ routed, d.Fires s.loop item routed
  | .writer _ => False

variable {d} {serde : SerdeJson}

theorem tryRecord_eq_error_iff (log : AsyncLog) (record : LiquidationRecord ℚ) :
    (∃ e, tryRecord log record = .error e) ↔ log.queue.length = asyncLogCapacity := by
  rw [← Channel.Bounded.trySend_eq_none_iff, tryRecord]
  cases log.trySend record <;> simp

theorem trySend_of_tryRecord {log log' : AsyncLog} {record : LiquidationRecord ℚ}
    (h : tryRecord log record = .ok log') : log.trySend record = some log' := by
  unfold tryRecord at h
  cases hsend : log.trySend record with
  | none =>
    rw [hsend] at h
    cases h
  | some sent =>
    rw [hsend] at h
    cases h
    rfl

/-- What an iteration does to the channel. -/
theorem audit_loop_cases (serde : SerdeJson) (s : AuditState) (item : FeedItem) :
    ((d.step s.loop item).2 = none ∧
      d.audit serde s (.loop item) = { s with loop := (d.step s.loop item).1 } ∧
      ¬ ∃ routed, d.Fires s.loop item routed) ∨
    ∃ submission, (d.step s.loop item).2 = some submission ∧
      submission.record.outcome = item.answer ∧ (∃ routed, d.Fires s.loop item routed) ∧
      ((s.log.queue.length = asyncLogCapacity ∧
          d.audit serde s (.loop item) = { s with loop := (d.step s.loop item).1 }) ∨
        ∃ log, s.log.trySend submission.record = some log ∧
          d.audit serde s (.loop item) =
            { s with loop := (d.step s.loop item).1, log := log }) := by
  have haudit : d.audit serde s (.loop item) =
      match (d.step s.loop item).2 with
      | none => { s with loop := (d.step s.loop item).1 }
      | some submission =>
        match tryRecord s.log submission.record with
        | .ok log => { s with loop := (d.step s.loop item).1, log := log }
        | .error _ => { s with loop := (d.step s.loop item).1 } := rfl
  cases hout : (d.step s.loop item).2 with
  | none =>
    rw [hout] at haudit
    refine Or.inl ⟨rfl, haudit, ?_⟩
    rintro ⟨routed, hfires⟩
    rw [(d.step_snd_eq_some_iff _ _ _).mpr ⟨routed, hfires, rfl⟩] at hout
    cases hout
  | some submission =>
    rw [hout] at haudit
    obtain ⟨routed, hfires, rfl⟩ := (d.step_snd_eq_some_iff _ _ _).mp hout
    refine Or.inr ⟨_, rfl, rfl, ⟨routed, hfires⟩, ?_⟩
    cases hrecord : tryRecord s.log (d.submission (nextSlot s.loop item) item.answer routed).record
      with
    | error e =>
      simp only [hrecord] at haudit
      exact Or.inl ⟨(tryRecord_eq_error_iff _ _).mp ⟨e, hrecord⟩, haudit⟩
    | ok log =>
      simp only [hrecord] at haudit
      exact Or.inr ⟨log, trySend_of_tryRecord hrecord, haudit⟩

/-- The writer takes a record out of the queue, which is still an accepted one. -/
theorem audit_writer_agrees {s : AuditState} (h : s.Agrees) (write : Option Write) :
    (d.audit serde s (.writer write)).Agrees := by
  simp only [audit]
  cases hrecv : s.log.recv with
  | none => exact h
  | some received =>
    obtain ⟨record, log⟩ := received
    exact h.trans (congrArg booksOf (Channel.Bounded.accepted_of_recv hrecv).symm)

/-- A record the channel accepts is booked on both sides. -/
theorem audit_accepted_agrees {s : AuditState} (h : s.Agrees) {item : FeedItem}
    {record : LiquidationRecord ℚ} {log : AsyncLog} (hsend : s.log.trySend record = some log)
    (houtcome : record.outcome = item.answer)
    (hbooks : (d.step s.loop item).1.dashboard.books = s.loop.dashboard.books.settle item.answer)
    (haudit : d.audit serde s (.loop item) =
      { s with loop := (d.step s.loop item).1, log := log }) :
    (d.audit serde s (.loop item)).Agrees := by
  show (d.audit serde s (.loop item)).loop.dashboard.books = _
  rw [haudit, Channel.Bounded.accepted_of_trySend hsend, booksOf_concat, houtcome, hbooks,
    show s.loop.dashboard.books = _ from h]

/-- One step keeps the agreement exactly when it does not overflow. -/
theorem audit_agrees_iff {s : AuditState} (h : s.Agrees) (event : AuditEvent) :
    (d.audit serde s event).Agrees ↔ ¬ d.Overflows s event := by
  cases event with
  | writer write => exact iff_of_true (audit_writer_agrees h write) not_false
  | loop item =>
    have hbooks := d.step_books s.loop item
    obtain ⟨hout, haudit, hidle⟩ | ⟨submission, hout, houtcome, hfires, hcases⟩ :=
      audit_loop_cases serde s item
    · rw [hout] at hbooks
      rw [haudit]
      refine iff_of_true (hbooks.trans h) ?_
      rintro ⟨-, -, hfires⟩
      exact hidle hfires
    · rw [hout] at hbooks
      simp only [houtcome] at hbooks
      obtain ⟨hfull, haudit⟩ | ⟨log, hsend, haudit⟩ := hcases
      · have hkept : (d.audit serde s (.loop item)).Agrees ↔ item.answer = .notIncluded := by
          rw [haudit, ← s.loop.dashboard.books.settle_eq_self_iff item.answer, ← hbooks]
          exact ⟨fun hagrees => hagrees.trans h.symm, fun hsame => hsame.trans h⟩
        rw [hkept, Overflows]
        constructor
        · rintro hanswer ⟨-, hcounts, -⟩
          exact hcounts hanswer
        · intro hno
          by_contra hcounts
          exact hno ⟨hfull, hcounts, hfires⟩
      · refine iff_of_true (audit_accepted_agrees h hsend houtcome hbooks haudit) ?_
        rintro ⟨hfull, -, -⟩
        rw [Channel.Bounded.trySend_eq_none_iff.mpr hfull] at hsend
        cases hsend

theorem audited_concat (d : Daemon) (serde : SerdeJson) (router : MultiSourceRouter)
    (events : List AuditEvent) (event : AuditEvent) :
    d.audited serde router (events ++ [event]) =
      d.audit serde (d.audited serde router events) event := List.foldl_append

/-- A run without overflow ends in agreement. -/
theorem agrees_of_not_overflows {router : MultiSourceRouter} {events : List AuditEvent}
    (h : ∀ before event later, events = before ++ event :: later →
      ¬ d.Overflows (d.audited serde router before) event) :
    (d.audited serde router events).Agrees := by
  induction events using List.reverseRecOn with
  | nil => rfl
  | append_singleton events event ih =>
    rw [audited_concat]
    refine (audit_agrees_iff (ih ?_) event).mpr (h events event [] rfl)
    rintro before event' later rfl
    exact h before event' (later ++ [event]) (by simp)

/-- **When dashboard and audit log agree.**  They agree in every state of a run,
if and only if no landed or reverted outcome of the run meets a full channel. -/
theorem agrees_throughout_iff (d : Daemon) (serde : SerdeJson) (router : MultiSourceRouter)
    (events : List AuditEvent) :
    (∀ reached, reached <+: events → (d.audited serde router reached).Agrees) ↔
      ∀ before event later, events = before ++ event :: later →
        ¬ d.Overflows (d.audited serde router before) event := by
  constructor
  · rintro h before event later rfl
    have hbefore := h before (List.prefix_append _ _)
    have hafter := h (before ++ [event]) ⟨later, by simp⟩
    rw [audited_concat] at hafter
    exact (audit_agrees_iff hbefore event).mp hafter
  · rintro h reached ⟨rest, rfl⟩
    refine agrees_of_not_overflows ?_
    rintro before event later rfl
    exact h before event (later ++ rest) (by simp)

/-! ## What a restart reads back -/

/-- The step does not meet a failing disk. -/
def Persists : AuditEvent → Prop
  | .loop _ => True
  | .writer write => write = some .complete

/-- The file is the lines of what the writer received. -/
theorem file_audited {router : MultiSourceRouter} {events : List AuditEvent}
    (h : ∀ event ∈ events, Persists event) :
    (d.audited serde router events).file.getD [] =
      TextLines.utf8 (serde.text (d.audited serde router events).log.received none) := by
  induction events using List.reverseRecOn with
  | nil => rfl
  | append_singleton events event ih =>
    have hfile := ih fun event' hmem => h event' (List.mem_append_left _ hmem)
    have hevent := h event (by simp)
    rw [audited_concat]
    cases event with
    | loop item =>
      obtain ⟨-, haudit, -⟩ | ⟨_, -, -, -, ⟨-, haudit⟩ | ⟨log, hsend, haudit⟩⟩ :=
        audit_loop_cases serde (d.audited serde router events) item
      · rw [haudit]
        exact hfile
      · rw [haudit]
        exact hfile
      · rw [haudit]
        simp only [(Channel.Bounded.queue_of_trySend hsend).2]
        exact hfile
    | writer write =>
      obtain rfl : write = some .complete := hevent
      simp only [audit]
      cases hrecv : (d.audited serde router events).log.recv with
      | none => exact hfile
      | some received =>
        obtain ⟨record, log⟩ := received
        simp only [(Channel.Bounded.queue_of_recv hrecv).2]
        exact writeLine_getD hfile record

/-- **Restart.**  After a run without overflow on a working disk, the log opens,
and its records together with those still queued are what the dashboard shows. -/
theorem dashboard_of_reopened_log {router : MultiSourceRouter} {events : List AuditEvent}
    (path : String) (hdisk : ∀ event ∈ events, Persists event)
    (hroom : ∀ before event later, events = before ++ event :: later →
      ¬ d.Overflows (d.audited serde router before) event)
    (hserde : ∀ record ∈ (d.audited serde router events).log.received,
      serde.WritesLine record) :
    ∃ log, LiquidationLog.openLog serde (d.audited serde router events).file path = .ok log ∧
      (d.audited serde router events).loop.dashboard.books =
        booksOf (log.records ++ (d.audited serde router events).log.queue) := by
  refine ⟨⟨(d.audited serde router events).log.received, some path⟩, ?_, ?_⟩
  · have hlines : ∀ record ∈ (d.audited serde router events).log.received ++
        (none : Option (LiquidationRecord ℚ)).toList, serde.WritesLine record := by
      simpa using hserde
    rw [LiquidationLog.openLog_text path hlines (file_audited hdisk), Option.toList_none,
      List.append_nil]
  · exact agrees_of_not_overflows hroom

/-! ## A writer that falls behind -/

/-- A landing that can be repeated is booked, and queued while there is room. -/
theorem audit_landing (serde : SerdeJson) {s : AuditState} {item : FeedItem}
    {routed : RoutedCandidate ℚ}
    (hfires : d.Fires s.loop item routed) (hreserve : routed.flashSource.reserve ≠ Pubkey.default)
    (hlanded : item.answer.isLanded = true) :
    d.Fires (d.audit serde s (.loop item)).loop item routed ∧
      (d.audit serde s (.loop item)).loop.dashboard.books.landed =
        s.loop.dashboard.books.landed + 1 ∧
      (d.audit serde s (.loop item)).log.queue.length =
        min (s.log.queue.length + 1) asyncLogCapacity ∧
      (d.audit serde s (.loop item)).log.received = s.log.received := by
  have hle := s.log.length_le
  have hbooks := d.step_books s.loop item
  obtain ⟨-, -, hidle⟩ | ⟨submission, hout, houtcome, -, hcases⟩ := audit_loop_cases serde s item
  · exact absurd ⟨routed, hfires⟩ hidle
  · have hlanding : (d.step s.loop item).1.dashboard.books.landed =
        s.loop.dashboard.books.landed + 1 := by
      rw [hbooks, hout]
      cases hanswer : item.answer <;>
        simp_all [SubmitOutcome.isLanded, Books.settle]
    obtain ⟨hfull, haudit⟩ | ⟨log, hsend, haudit⟩ := hcases
    · rw [haudit]
      refine ⟨hfires.again hreserve item.answer, hlanding, ?_, rfl⟩
      show s.log.queue.length = _
      omega
    · obtain ⟨hqueue, hreceived⟩ := Channel.Bounded.queue_of_trySend hsend
      rw [haudit]
      refine ⟨hfires.again hreserve item.answer, hlanding, ?_, hreceived⟩
      have hroom := log.length_le
      rw [hqueue, List.length_append, List.length_singleton] at hroom ⊢
      omega

/-- The same landing `n` times over while the writer does nothing. -/
theorem audit_replicate (serde : SerdeJson) {s : AuditState} {item : FeedItem}
    {routed : RoutedCandidate ℚ}
    (hfires : d.Fires s.loop item routed) (hreserve : routed.flashSource.reserve ≠ Pubkey.default)
    (hlanded : item.answer.isLanded = true) (n : Nat) :
    let s' := (List.replicate n (AuditEvent.loop item)).foldl (d.audit serde) s
    d.Fires s'.loop item routed ∧
      s'.loop.dashboard.books.landed = s.loop.dashboard.books.landed + n ∧
      s'.log.queue.length = min (s.log.queue.length + n) asyncLogCapacity ∧
      s'.log.received = s.log.received := by
  induction n with
  | zero => exact ⟨hfires, rfl, (min_eq_left s.log.length_le).symm, rfl⟩
  | succ n ih =>
    obtain ⟨hfires', hlanded', hqueue, hreceived⟩ := ih
    obtain ⟨hfires'', hlanded'', hqueue', hreceived'⟩ :=
      audit_landing serde hfires' hreserve hlanded
    rw [List.replicate_succ', List.foldl_append]
    refine ⟨hfires'', hlanded''.trans ?_, hqueue'.trans ?_, hreceived'.trans hreceived⟩
    · omega
    · omega

/-- The loop takes its steps whatever the channel does. -/
theorem foldl_audit_loop (serde : SerdeJson) (items : List FeedItem) (s : AuditState) :
    ((items.map AuditEvent.loop).foldl (d.audit serde) s).loop =
      Machine.final d.step s.loop items := by
  induction items generalizing s with
  | nil => rfl
  | cons item items ih =>
    rw [List.map_cons, List.foldl_cons, ih, Machine.final_cons]
    obtain ⟨-, haudit, -⟩ | ⟨_, -, -, -, ⟨-, haudit⟩ | ⟨_, -, haudit⟩⟩ :=
      audit_loop_cases serde s item <;> rw [haudit]

/-- 4096 landings fill the channel, and one more is booked and dropped. -/
theorem dropped_landing :
    let d := Daemon.sample 1 (by decide)
    let router := routerOf ⟨.kamino, Bytes32.fill 5, Bytes32.fill 4⟩
    let obligation : FeedItem := ⟨Klend.sampleObligation (Bytes32.fill 5) 10, .landed 11 9⟩
    let events := warmUp.map AuditEvent.loop ++ List.replicate 4097 (.loop obligation)
    d.mode = .live ∧
      (d.audited sampleSerde router events).loop.dashboard.liquidationsLanded = 4097 ∧
      (d.audited sampleSerde router events).log.accepted.length = 4096 ∧
      ¬ ∀ reached, reached <+: events → (d.audited sampleSerde router reached).Agrees := by
  intro d router obligation events
  let warm := d.audited sampleSerde router (warmUp.map AuditEvent.loop)
  have hempty : warm.log.queue = [] ∧ warm.log.received = [] ∧
      warm.loop.dashboard.books.landed = 0 := by decide +kernel
  have hfires : d.Fires warm.loop obligation
      (sampleRoute ⟨.kamino, Bytes32.fill 5, Bytes32.fill 4⟩ d.config.risk) := by
    have hloop : warm.loop = d.after router warmUp := foldl_audit_loop sampleSerde warmUp _
    rw [hloop]
    exact sample_fires _ _
  have hreserve : (sampleRoute ⟨.kamino, Bytes32.fill 5, Bytes32.fill 4⟩
      d.config.risk).flashSource.reserve ≠ Pubkey.default := by decide
  obtain ⟨-, hlanded, hqueue, hreceived⟩ :=
    audit_replicate sampleSerde hfires hreserve rfl 4097
  have hend : d.audited sampleSerde router events =
      (List.replicate 4097 (AuditEvent.loop obligation)).foldl (d.audit sampleSerde) warm :=
    List.foldl_append
  rw [← hend] at hlanded hqueue hreceived
  rw [hempty.2.2, Nat.zero_add] at hlanded
  rw [hempty.1] at hqueue
  rw [hempty.2.1] at hreceived
  have haccepted : (d.audited sampleSerde router events).log.accepted.length = 4096 := by
    rw [Channel.Bounded.accepted, hreceived, List.nil_append, hqueue]
    rfl
  have hbooked (dashboard : DashboardState) :
      dashboard.books.landed = dashboard.liquidationsLanded := rfl
  refine ⟨rfl, ?_, haccepted, ?_⟩
  · rw [← hbooked]
    exact hlanded
  · intro h
    have hagrees := congrArg Books.landed (h events (List.prefix_refl _))
    have hcount := booksOf_landed_le (d.audited sampleSerde router events).log.accepted
    omega

end Daemon

end Gyrfalcon
