import Gyrfalcon.DualPath
import Gyrfalcon.LockOut

/-!
# Endpoint replies and booked profit

A live run with the endpoints in it: each iteration submits through the
`DualPathSubmitter` that `main` builds, and the endpoints answer with an HTTP
status and a JSON-RPC body.  Both transports look at the status only, so a
request that is rejected inside a 2xx reply is booked as a landed liquidation.
-/

namespace Gyrfalcon

open Race

/-! ## Replies -/

/-- An HTTP reply with a JSON-RPC 2.0 body, by its two members. -/
structure HttpReply where
  status : Nat
  result : Option String
  error : Option String
  deriving DecidableEq, Repr

/-- The endpoint took the request: a 2xx status and no `error` member. -/
def HttpReply.Accepts (reply : HttpReply) : Prop :=
  isSuccess reply.status = true ∧ reply.error = none

/-- What an endpoint does with one transaction: a reply or a transport error,
after some time. -/
abbrev Endpoint := List UInt8 → Timed (Except Unit HttpReply)

/-- The part of a reply that `send` reads. -/
def Endpoint.status (endpoint : Endpoint) : List UInt8 → Timed (Except Unit Nat) :=
  fun versionedTx => (endpoint versionedTx).mapValue (Except.map HttpReply.status)

/-- One iteration's input: the account, what the two endpoints do with a
transaction they are sent, and the branch `submit` polls first. -/
structure LiveItem where
  rawAcc : AccountUpdate
  stakedSend : Endpoint
  blockEngine : Endpoint
  order : PollOrder

namespace LiveItem

variable (item : LiveItem)

/-- The submitter that `main` builds, on the endpoints of this iteration. -/
def submitter : DualPathSubmitter ℚ :=
  DualPathSubmitter.new (stakedQuicSendPath item.stakedSend.status)
    (jitoSendPath item.blockEngine.status) (Duration.fromMillis 1500)

/-- The reply that decides the outcome: the first one within the timeouts. -/
def firstReply (versionedTx : List UInt8) : Option (Except Unit HttpReply) :=
  Race.timeout (Duration.fromMillis 1500) <| select item.order
    (select .leftFirst (item.stakedSend versionedTx) (some (Duration.fromMillis 800, .error ())))
    (select .leftFirst (item.blockEngine versionedTx) (some (Duration.fromMillis 1500, .error ())))

/-- A path is the endpoint under the client's timeout, read by its status. -/
theorem httpSendPath_send (name : String) (timeout : Duration) (endpoint : Endpoint)
    (bundle : Bundle ℚ) :
    (httpSendPath name ⟨timeout, endpoint.status⟩).send bundle =
      (select .leftFirst (endpoint bundle.versionedTx) (some (timeout, .error ()))).mapValue
        (PathOutcome.ofReply bundle ∘ Except.map HttpReply.status) := by
  have hclient : HttpClient.send ⟨timeout, endpoint.status⟩ bundle.versionedTx =
      (select .leftFirst (endpoint bundle.versionedTx) (some (timeout, .error ()))).mapValue
        (Except.map HttpReply.status) := by
    rw [← select_mapValue]
    rfl
  show (HttpClient.send _ bundle.versionedTx).mapValue (PathOutcome.ofReply bundle) = _
  rw [hclient, mapValue_mapValue]

/-- `submit` reports the first reply. -/
theorem submit_eq_firstReply (bundle : Bundle ℚ) :
    item.submitter.submit item.order bundle =
      ((item.firstReply bundle.versionedTx).map fun reply =>
        DualPathSubmitter.report (PathOutcome.ofReply bundle (reply.map HttpReply.status))).getD
          .notIncluded := by
  have hraced : item.submitter.raced item.order bundle =
      (select item.order
        (select .leftFirst (item.stakedSend bundle.versionedTx)
          (some (Duration.fromMillis 800, .error ())))
        (select .leftFirst (item.blockEngine bundle.versionedTx)
          (some (Duration.fromMillis 1500, .error ())))).mapValue
            (PathOutcome.ofReply bundle ∘ Except.map HttpReply.status) := by
    rw [← select_mapValue, ← httpSendPath_send "staked_quic",
      ← httpSendPath_send "jito_block_engine"]
    rfl
  rw [DualPathSubmitter.submit_eq, hraced, timeout_mapValue, Option.map_map]
  rfl

/-- A bundle counts as landed exactly when the first reply has a 2xx status. -/
theorem submit_eq_landed_iff (bundle : Bundle ℚ) :
    (∃ slot net, item.submitter.submit item.order bundle = .landed slot net) ↔
      ∃ reply, item.firstReply bundle.versionedTx = some (.ok reply) ∧
        isSuccess reply.status = true := by
  rw [submit_eq_firstReply]
  cases hfirst : item.firstReply bundle.versionedTx with
  | none => simp
  | some reply =>
    cases reply with
    | error e => simp [Except.map, PathOutcome.ofReply, DualPathSubmitter.report]
    | ok reply =>
      by_cases hsuccess : isSuccess reply.status = true
      · simp [Except.map, PathOutcome.ofReply, DualPathSubmitter.report, hsuccess]
      · simp [Except.map, PathOutcome.ofReply, DualPathSubmitter.report, hsuccess]

end LiveItem

/-! ## Live runs -/

namespace Daemon

variable (d : Daemon)

/-- The outcome the submitter reports for the bundle of this iteration. -/
def outcome (s : LoopState) (item : LiveItem) : SubmitOutcome ℚ :=
  match (d.step s ⟨item.rawAcc, .notIncluded⟩).2 with
  | none => .notIncluded
  | some submission => item.submitter.submit item.order submission.bundle

/-- One iteration, with the endpoints behind the submitter. -/
def liveStep (s : LoopState) (item : LiveItem) : LoopState × Option Submission :=
  d.step s ⟨item.rawAcc, d.outcome s item⟩

/-- The recorded outcome is what the submitter reports for the bundle itself. -/
theorem liveStep_outcome {s : LoopState} {item : LiveItem} {submission : Submission}
    (h : (d.liveStep s item).2 = some submission) :
    submission.record.outcome = item.submitter.submit item.order submission.bundle := by
  obtain ⟨routed, hfires, rfl⟩ := (d.step_snd_eq_some_iff _ _ _).mp h
  have hsame := (d.step_snd_eq_some_iff s ⟨item.rawAcc, .notIncluded⟩ _).mpr
    ⟨routed, ⟨hfires.candidate, hfires.passes⟩, rfl⟩
  show d.outcome s item = _
  rw [outcome, hsame]
  rfl

/-- The iteration books a success: a profit counter moves, or the outcome is
`Landed`, on which `record_success` is called. -/
def BooksSuccess (step : Machine.Step LoopState LiveItem (Option Submission)) : Prop :=
  step.post.dashboard.liquidationsLanded ≠ step.pre.dashboard.liquidationsLanded ∨
    step.post.dashboard.totalNetProfitUsd ≠ step.pre.dashboard.totalNetProfitUsd ∨
    ∃ submission slot net, step.output = some submission ∧
      submission.record.outcome = .landed slot net

/-- Successes of the run over `items` are booked on accepted bundles only. -/
def BooksAccepted (router : MultiSourceRouter) (items : List LiveItem) : Prop :=
  ∀ step ∈ Machine.steps d.liveStep (d.start router) items, BooksSuccess step →
    ∃ submission reply, step.output = some submission ∧
      step.input.firstReply submission.bundle.versionedTx = some (.ok reply) ∧ reply.Accepts

/-- The profit counters move on a `Landed` outcome only. -/
theorem booksSuccess_iff_landed {s : LoopState} {items : List LiveItem}
    {step : Machine.Step LoopState LiveItem (Option Submission)}
    (h : step ∈ Machine.steps d.liveStep s items) :
    BooksSuccess step ↔ ∃ submission slot net, step.output = some submission ∧
      submission.record.outcome = .landed slot net := by
  obtain ⟨_, _, -, -, hstep⟩ := (Machine.mem_steps_iff _ _ _ _).mp h
  have hlive : d.step step.pre ⟨step.input.rawAcc, d.outcome step.pre step.input⟩ =
      (step.post, step.output) := hstep
  have hbooks := d.step_books step.pre ⟨step.input.rawAcc, d.outcome step.pre step.input⟩
  simp only [hlive] at hbooks
  constructor
  · intro hmoves
    by_contra hnone
    have hkeeps : step.post.dashboard.books.landed = step.pre.dashboard.books.landed ∧
        step.post.dashboard.books.netUsd = step.pre.dashboard.books.netUsd := by
      rw [hbooks]
      cases houtput : step.output with
      | none => exact ⟨rfl, rfl⟩
      | some submission =>
        cases houtcome : submission.record.outcome with
        | landed slot net => exact absurd ⟨submission, slot, net, houtput, houtcome⟩ hnone
        | reverted reason => simp [houtcome, Books.settle]
        | notIncluded => simp [houtcome, Books.settle]
    rcases hmoves with hlanded | hnet | hsome
    · exact hlanded hkeeps.1
    · exact hnet hkeeps.2
    · exact hnone hsome
  · intro hsome
    exact Or.inr (Or.inr hsome)

/-- A step books a success exactly when it submits and the first reply has a
2xx status. -/
theorem booksSuccess_iff {s : LoopState} {items : List LiveItem}
    {step : Machine.Step LoopState LiveItem (Option Submission)}
    (h : step ∈ Machine.steps d.liveStep s items) :
    BooksSuccess step ↔ ∃ submission reply, step.output = some submission ∧
      step.input.firstReply submission.bundle.versionedTx = some (.ok reply) ∧
      isSuccess reply.status = true := by
  obtain ⟨_, _, -, -, hstep⟩ := (Machine.mem_steps_iff _ _ _ _).mp h
  rw [d.booksSuccess_iff_landed h]
  refine exists_congr fun submission => ?_
  simp only [exists_and_left]
  refine and_congr_right fun houtput => ?_
  have houtcome := d.liveStep_outcome ((congrArg Prod.snd hstep).trans houtput)
  rw [houtcome, step.input.submit_eq_landed_iff]

/-- **When only accepted bundles are booked.**  In a live run, if and only if no
bundle it submits is answered first by a 2xx reply that carries an error. -/
theorem booksAccepted_iff (d : Daemon) (router : MultiSourceRouter) (items : List LiveItem) :
    d.BooksAccepted router items ↔
      ∀ step ∈ Machine.steps d.liveStep (d.start router) items, ∀ submission reply,
        step.output = some submission →
        step.input.firstReply submission.bundle.versionedTx = some (.ok reply) →
        isSuccess reply.status = true → reply.error = none := by
  constructor
  · intro h step hstep submission reply houtput hfirst hsuccess
    obtain ⟨submission', reply', houtput', hfirst', -, herror⟩ := h step hstep
      ((d.booksSuccess_iff hstep).mpr ⟨submission, reply, houtput, hfirst, hsuccess⟩)
    rw [houtput] at houtput'
    cases houtput'
    rw [hfirst] at hfirst'
    cases hfirst'
    exact herror
  · intro h step hstep hbooks
    obtain ⟨submission, reply, houtput, hfirst, hsuccess⟩ := (d.booksSuccess_iff hstep).mp hbooks
    exact ⟨submission, reply, houtput, hfirst, hsuccess,
      h step hstep submission reply houtput hfirst hsuccess⟩

/-- The sample run: market, reserve and obligation are delivered, the staked
endpoint answers with `reply` after a millisecond and the block engine hangs. -/
def answeredBy (reply : HttpReply) : List LiveItem :=
  [Klend.sampleMarket 10, Klend.sampleReserve 1 10,
    Klend.sampleObligation (Bytes32.fill 5) 10].map fun rawAcc =>
      ⟨rawAcc, fun _ => some (Duration.fromMillis 1, .ok reply), fun _ => none, .leftFirst⟩

/-- A status of 200 with an `error` member: nothing was accepted, and a landed
liquidation with its profit is booked. -/
theorem books_rejected_bundle :
    let d := Daemon.sample 1 (by decide)
    let router := routerOf ⟨.kamino, Bytes32.fill 5, Bytes32.fill 4⟩
    let reply : HttpReply := ⟨200, none, some "Transaction simulation failed"⟩
    d.mode = .live ∧ ¬ reply.Accepts ∧
      (Machine.final d.liveStep (d.start router) (answeredBy reply)).dashboard.books =
        ⟨1, 0, 1629 / 100⟩ ∧
      ¬ d.BooksAccepted router (answeredBy reply) := by
  intro d router reply
  have hrejects : ¬ reply.Accepts := by simp [HttpReply.Accepts, reply]
  refine ⟨rfl, hrejects, by decide +kernel, fun haccepted => ?_⟩
  let item : LiveItem := ⟨Klend.sampleObligation (Bytes32.fill 5) 10,
    fun _ => some (Duration.fromMillis 1, .ok reply), fun _ => none, .leftFirst⟩
  have hmem :=
    Machine.step_mem_steps d.liveStep (d.start router) ((answeredBy reply).take 2) item []
  obtain ⟨submission, reply', -, hfirst, haccepts⟩ :=
    haccepted _ hmem (Or.inl (by decide +kernel))
  have hreply : item.firstReply submission.bundle.versionedTx = some (.ok reply) := rfl
  rw [hreply] at hfirst
  cases hfirst
  exact hrejects haccepts

end Daemon

end Gyrfalcon
