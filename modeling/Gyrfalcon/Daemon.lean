import Gyrfalcon.Breakers
import Gyrfalcon.Bundler
import Gyrfalcon.Kamino
import Gyrfalcon.Lib.Machine
import Gyrfalcon.Router
import Gyrfalcon.Sizing
import Mathlib.Data.List.ReduceOption

/-!
# The daemon loop (`gyrfalcon-bin/src/main.rs`)

One iteration consumes one raw account from the feed and may hand one bundle to
the submitter.  The submitter's answer is part of the input, so a run is driven
by an arbitrary list of (account, answer) pairs.  `Fires` says when an
iteration submits, in terms of the state before it; `step_snd_eq_some_iff` and
the frame lemmas after it are all that later proofs use of `step`.
-/

namespace Gyrfalcon

/-! ## Start-up -/

inductive CliMode where
  | observe
  | live
  deriving DecidableEq, Repr

structure Cli where
  mode : Option CliMode
  halt : Bool
  deriving DecidableEq, Repr

def effectiveMode (cli : Cli) (configMode : SubmitMode) : SubmitMode :=
  if cli.halt then .observe
  else
    match cli.mode with
    | some .observe => .observe
    | some .live => .live
    | none => configMode

/-- What `main` has set up when it enters the loop; a configuration that does
not validate never gets there. -/
structure Daemon where
  cli : Cli
  config : Config ℚ
  valid : config.validate = .ok ()
  klend : Klend.Interface
  sdk : SolanaSdk
  payer : Pubkey

def Daemon.mode (d : Daemon) : SubmitMode := effectiveMode d.cli d.config.submit.mode

/-- The owners the decoder registry watches. -/
def watchedOwners : List Pubkey := [kaminoProgramId]

/-! ## State -/

/-- The dashboard fields that the loop writes. -/
structure DashboardState where
  mode : String
  currentSlot : Nat
  trackedPositions : Nat
  kaminoPositions : Nat
  breachCandidatesDetected : Nat
  liquidationsAttempted : Nat
  liquidationsLanded : Nat
  liquidationsReverted : Nat
  totalNetProfitUsd : ℚ
  syncLagKamino : Nat
  deriving DecidableEq, Repr

structure LoopState where
  kamino : KaminoAdapter
  router : MultiSourceRouter
  breakerState : BreakerState
  slotCounter : Nat
  dashboard : DashboardState

/-- One iteration's input: the account, and what the submitter answers should
the iteration submit. -/
structure FeedItem where
  rawAcc : AccountUpdate
  answer : SubmitOutcome ℚ
  deriving DecidableEq, Repr

/-- One call of `submitter.submit` and the record written for it. -/
structure Submission where
  bundle : Bundle ℚ
  record : LiquidationRecord ℚ
  deriving DecidableEq, Repr

/-- The state before the first iteration, with an arbitrary router. -/
def Daemon.start (d : Daemon) (router : MultiSourceRouter) : LoopState where
  kamino := KaminoAdapter.new
  router := router
  breakerState := BreakerState.new
  slotCounter := 300000000
  dashboard := ⟨d.mode.display, 0, 0, 0, 0, 0, 0, 0, 0, 0⟩

/-- The state in which `main` itself enters the loop. -/
def Daemon.main (d : Daemon) : LoopState := d.start MultiSourceRouter.new

/-! ## One iteration -/

/-- The key under which the breaker is asked, before a flash source is known. -/
def checkedRoute (candidate : BreachCandidate ℚ) : RouteKey :=
  ⟨candidate.protocol, candidate.positionId, Pubkey.default⟩

/-- The key under which an outcome is recorded. -/
def RoutedCandidate.route (routed : RoutedCandidate ℚ) : RouteKey :=
  ⟨routed.candidate.protocol, routed.candidate.positionId, routed.flashSource.reserve⟩

def flashDepth : Nat := 50000000000

/-- The transaction is a zero self-transfer; a failed assembly is replaced by
64 zero bytes. -/
def Daemon.bundle (d : Daemon) (simResult : SimResult ℚ) : Bundle ℚ :=
  let params : BundleParams := {
    instructions := [d.sdk.transfer d.payer d.payer 0]
    cuLimit := simResult.cuMeasured
    cuPriceMicroLamports := none
    payer := d.payer
    recentBlockhash := Hash.default
    addressLookupTables := [] }
  let versionedTx :=
    match assemble d.sdk params with
    | .ok tx =>
      match toCoreBundleBytes d.sdk tx with
      | .ok bytes => bytes
      | .error _ => List.replicate 64 0
    | .error _ => List.replicate 64 0
  ⟨simResult, versionedTx, []⟩

/-- The counters of one resolved submission. -/
def DashboardState.settle (dashboard : DashboardState) : SubmitOutcome ℚ → DashboardState
  | .landed _ actualNetUsd =>
    { dashboard with
      liquidationsLanded := dashboard.liquidationsLanded + 1
      totalNetProfitUsd := dashboard.totalNetProfitUsd + actualNetUsd }
  | .reverted _ =>
    { dashboard with liquidationsReverted := dashboard.liquidationsReverted + 1 }
  | .notIncluded => dashboard

/-- The part of the dashboard that outcomes are booked in. -/
structure Books where
  landed : Nat
  reverted : Nat
  netUsd : ℚ
  deriving DecidableEq, Repr

def DashboardState.books (dashboard : DashboardState) : Books :=
  ⟨dashboard.liquidationsLanded, dashboard.liquidationsReverted, dashboard.totalNetProfitUsd⟩

def Books.settle (books : Books) : SubmitOutcome ℚ → Books
  | .landed _ actualNetUsd =>
    { books with landed := books.landed + 1, netUsd := books.netUsd + actualNetUsd }
  | .reverted _ => { books with reverted := books.reverted + 1 }
  | .notIncluded => books

@[simp] theorem DashboardState.books_settle (dashboard : DashboardState)
    (outcome : SubmitOutcome ℚ) :
    (dashboard.settle outcome).books = dashboard.books.settle outcome := by
  cases outcome <;> rfl

@[simp] theorem DashboardState.currentSlot_settle (dashboard : DashboardState)
    (outcome : SubmitOutcome ℚ) :
    (dashboard.settle outcome).currentSlot = dashboard.currentSlot := by
  cases outcome <;> rfl

/-- The breaker update of one resolved submission. -/
def BreakerState.settle (breakerState : BreakerState) (route : RouteKey) (limit : UInt32) :
    SubmitOutcome ℚ → BreakerState
  | .landed _ _ => breakerState.recordSuccess route
  | .reverted _ => breakerState.recordRevert route limit
  | .notIncluded => breakerState

/-- The part of the iteration that follows a breach candidate. -/
def Daemon.onCandidate (d : Daemon) (s : LoopState) (candidate : BreachCandidate ℚ)
    (answer : SubmitOutcome ℚ) : LoopState × Option Submission :=
  let s := { s with
    dashboard := { s.dashboard with
      breachCandidatesDetected := s.dashboard.breachCandidatesDetected + 1 } }
  if s.breakerState.allows candidate.protocol (checkedRoute candidate) ≠ .allowed then (s, none)
  else
    match sizeAndRoute d.klend.f64 candidate s.router.route d.config.risk flashDepth with
    | none => (s, none)
    | some routed =>
      let simResult := LiteSvmSimulator.new.simulate routed
      if simResult.feasible && simResult.profitable then
        match d.mode with
        | .observe => (s, none)
        | .live =>
          let dashboard := { s.dashboard with
            liquidationsAttempted := s.dashboard.liquidationsAttempted + 1 }
          let record : LiquidationRecord ℚ :=
            ⟨routed, answer, s.slotCounter, (s.slotCounter + 1) % 2 ^ 64⟩
          ({ s with
              dashboard := dashboard.settle answer
              breakerState :=
                s.breakerState.settle routed.route d.config.risk.consecutiveRevertLimit answer },
            some ⟨d.bundle simResult, record⟩)
      else (s, none)

/-- One iteration of the loop. -/
def Daemon.step (d : Daemon) (s : LoopState) (item : FeedItem) : LoopState × Option Submission :=
  let rawAcc := item.rawAcc
  let slotCounter := max rawAcc.slot ((s.slotCounter + 1) % 2 ^ 64)
  let s := { s with
    slotCounter := slotCounter
    dashboard := { s.dashboard with
      currentSlot := slotCounter
      kaminoPositions := s.kamino.positionCount
      trackedPositions := s.kamino.positionCount
      syncLagKamino := s.kamino.syncLagSlots } }
  if rawAcc.owner ∉ watchedOwners then (s, none)
  else
    let (kamino, candidateOpt) :=
      if rawAcc.owner = kaminoProgramId then s.kamino.onAccountUpdate d.klend rawAcc
      else (s.kamino, none)
    let s := { s with kamino := kamino }
    match candidateOpt with
    | none => (s, none)
    | some candidate => d.onCandidate s candidate item.answer

/-- A live daemon over the sample codec, for closed examples: it halts at a lag
of 5 slots and takes a route out of rotation at `limit` reverts. -/
def Daemon.sample (limit : UInt32) (hlimit : limit ≠ 0) : Daemon where
  cli := ⟨some .live, false⟩
  config := ⟨⟨"wallet.json", 1, "1h"⟩, ⟨.observe, 2, true, none⟩,
    ⟨10, 0, 5, 8 / 10, 200, 600, 1 / 10, 1000, limit⟩⟩
  valid := by simp [Config.validate, hlimit]
  klend := Klend.sample
  sdk :=
    { Message := List Instruction
      VersionedTransaction := List Instruction
      setComputeUnitLimit := fun limit => ⟨Bytes32.fill 3, [], [2, UInt8.ofNat limit]⟩
      setComputeUnitPrice := fun price => ⟨Bytes32.fill 3, [], [3, UInt8.ofNat price]⟩
      transfer := fun source target lamports =>
        ⟨Bytes32.fill 0, [AccountMeta.new source true, AccountMeta.new target false],
          [2, UInt8.ofNat lamports]⟩
      tryCompile := fun _ instructions _ _ => .ok instructions
      tryNew := .ok
      serialize := fun tx => .ok (tx.flatMap Instruction.data) }
  payer := Bytes32.fill 6

/-! ## When an iteration submits -/

namespace Daemon

variable (d : Daemon)

/-- The candidate passes every gate of the loop and is routed as `routed`. -/
structure Passes (router : MultiSourceRouter) (breakerState : BreakerState)
    (routed : RoutedCandidate ℚ) : Prop where
  allowed : breakerState.allows routed.candidate.protocol (checkedRoute routed.candidate) = .allowed
  sized : sizeAndRoute d.klend.f64 routed.candidate router.route d.config.risk flashDepth =
    some routed
  simulated : ((LiteSvmSimulator.new.simulate routed).feasible &&
    (LiteSvmSimulator.new.simulate routed).profitable) = true
  live : d.mode = .live

/-- The iteration on `item` submits the route `routed`. -/
structure Fires (s : LoopState) (item : FeedItem) (routed : RoutedCandidate ℚ) : Prop where
  candidate : (s.kamino.onAccountUpdate d.klend item.rawAcc).2 = some routed.candidate
  passes : d.Passes s.router s.breakerState routed

/-- The submission of an iteration that fires. -/
def submission (slotCounter : Nat) (answer : SubmitOutcome ℚ) (routed : RoutedCandidate ℚ) :
    Submission :=
  ⟨d.bundle (LiteSvmSimulator.new.simulate routed),
    ⟨routed, answer, slotCounter, (slotCounter + 1) % 2 ^ 64⟩⟩

theorem candidate_of_sizeAndRoute {f64 : Rounding.F64} {candidate : BreachCandidate ℚ}
    {router : FlashSourceRouter} {risk : RiskConfig ℚ} {depth : Nat} {routed : RoutedCandidate ℚ}
    (h : sizeAndRoute f64 candidate router risk depth = some routed) :
    routed.candidate = candidate := by
  obtain ⟨-, source, -, -, rfl⟩ := (sizeAndRoute_eq_some_iff _ _ _ _ _ _).mp h
  rfl

/-- A candidate that passes is submitted. -/
theorem onCandidate_of_passes {s : LoopState} {routed : RoutedCandidate ℚ}
    (h : d.Passes s.router s.breakerState routed) (answer : SubmitOutcome ℚ) :
    d.onCandidate s routed.candidate answer =
      ({ s with
          dashboard := { s.dashboard with
            breachCandidatesDetected := s.dashboard.breachCandidatesDetected + 1
            liquidationsAttempted := s.dashboard.liquidationsAttempted + 1 }.settle answer
          breakerState :=
            s.breakerState.settle routed.route d.config.risk.consecutiveRevertLimit answer },
        some (d.submission s.slotCounter answer routed)) := by
  simp only [onCandidate, h.allowed, h.sized, h.simulated, h.live, ne_eq, not_true_eq_false,
    ↓reduceIte]
  rfl

/-- One that does not is counted, and that is all. -/
theorem onCandidate_of_not_passes {s : LoopState} {candidate : BreachCandidate ℚ}
    (h : ∀ routed, routed.candidate = candidate → ¬ d.Passes s.router s.breakerState routed)
    (answer : SubmitOutcome ℚ) :
    d.onCandidate s candidate answer =
      ({ s with
          dashboard := { s.dashboard with
            breachCandidatesDetected := s.dashboard.breachCandidatesDetected + 1 } }, none) := by
  dsimp only [onCandidate]
  split
  · rfl
  · next hallowed =>
    split
    · rfl
    · next routed hsize =>
      split
      · next hsim =>
        split
        · rfl
        · next hmode =>
          obtain rfl := candidate_of_sizeAndRoute hsize
          exact absurd ⟨not_not.mp hallowed, hsize, hsim, hmode⟩ (h routed rfl)
      · rfl

/-- The slot counter after an iteration on `item`. -/
def nextSlot (s : LoopState) (item : FeedItem) : Nat :=
  max item.rawAcc.slot ((s.slotCounter + 1) % 2 ^ 64)

/-- The state once the account of `item` has been seen. -/
def observed (s : LoopState) (item : FeedItem) : LoopState where
  kamino := (s.kamino.onAccountUpdate d.klend item.rawAcc).1
  router := s.router
  breakerState := s.breakerState
  slotCounter := nextSlot s item
  dashboard := { s.dashboard with
    currentSlot := nextSlot s item
    kaminoPositions := s.kamino.positionCount
    trackedPositions := s.kamino.positionCount
    syncLagKamino := s.kamino.syncLagSlots }

/-- An account of another program is the same as one the adapter has no use for. -/
theorem step_eq (s : LoopState) (item : FeedItem) :
    d.step s item =
      match (s.kamino.onAccountUpdate d.klend item.rawAcc).2 with
      | none => (d.observed s item, none)
      | some candidate => d.onCandidate (d.observed s item) candidate item.answer := by
  by_cases howner : item.rawAcc.owner = kaminoProgramId
  · simp only [step, watchedOwners, List.mem_singleton, howner, not_true_eq_false, ↓reduceIte]
    rfl
  · have hupdate : s.kamino.onAccountUpdate d.klend item.rawAcc = (s.kamino, none) := by
      simp [KaminoAdapter.onAccountUpdate, howner]
    simp only [step, watchedOwners, List.mem_singleton, howner, not_false_eq_true, ↓reduceIte,
      observed, hupdate]
    rfl

/-- Everything one iteration can do: only the dashboard, the slot counter and
the adapter move, unless it submits. -/
theorem step_cases (s : LoopState) (item : FeedItem) :
    (∃ dashboard, d.step s item =
        (⟨(s.kamino.onAccountUpdate d.klend item.rawAcc).1, s.router, s.breakerState,
          nextSlot s item, dashboard⟩, none) ∧
      dashboard.books = s.dashboard.books ∧ dashboard.currentSlot = nextSlot s item ∧
      ∀ routed, ¬ d.Fires s item routed) ∨
    ∃ routed dashboard, d.Fires s item routed ∧
      d.step s item =
        (⟨(s.kamino.onAccountUpdate d.klend item.rawAcc).1, s.router,
          s.breakerState.settle routed.route d.config.risk.consecutiveRevertLimit item.answer,
          nextSlot s item, dashboard⟩,
        some (d.submission (nextSlot s item) item.answer routed)) ∧
      dashboard.books = s.dashboard.books.settle item.answer ∧
      dashboard.currentSlot = nextSlot s item := by
  rw [step_eq]
  by_cases hfires : ∃ routed, d.Fires s item routed
  · obtain ⟨routed, hfires⟩ := hfires
    simp only [hfires.candidate]
    rw [d.onCandidate_of_passes (s := d.observed s item) hfires.passes]
    exact Or.inr ⟨routed, _, hfires, rfl, DashboardState.books_settle _ _,
      DashboardState.currentSlot_settle _ _⟩
  · rw [not_exists] at hfires
    refine Or.inl ?_
    cases hcandidate : (s.kamino.onAccountUpdate d.klend item.rawAcc).2 with
    | none => exact ⟨_, rfl, rfl, rfl, hfires⟩
    | some candidate =>
      have hno : ∀ routed, routed.candidate = candidate →
          ¬ d.Passes s.router s.breakerState routed := by
        rintro routed rfl hpasses
        exact hfires routed ⟨hcandidate, hpasses⟩
      refine ⟨_, d.onCandidate_of_not_passes (s := d.observed s item) hno item.answer, ?_⟩
      exact ⟨rfl, rfl, hfires⟩

theorem Fires.unique {d : Daemon} {s : LoopState} {item : FeedItem} {a b : RoutedCandidate ℚ}
    (ha : d.Fires s item a) (hb : d.Fires s item b) : a = b := by
  have hcandidate := ha.candidate.symm.trans hb.candidate
  have hsized := hb.passes.sized
  rw [← Option.some.inj hcandidate, ha.passes.sized] at hsized
  exact Option.some.inj hsized

@[simp] theorem step_kamino (s : LoopState) (item : FeedItem) :
    (d.step s item).1.kamino = (s.kamino.onAccountUpdate d.klend item.rawAcc).1 := by
  obtain ⟨_, h, -⟩ | ⟨_, _, -, h, -⟩ := d.step_cases s item <;> rw [h]

@[simp] theorem step_router (s : LoopState) (item : FeedItem) :
    (d.step s item).1.router = s.router := by
  obtain ⟨_, h, -⟩ | ⟨_, _, -, h, -⟩ := d.step_cases s item <;> rw [h]

theorem step_snd_eq_some_iff (s : LoopState) (item : FeedItem) (submission : Submission) :
    (d.step s item).2 = some submission ↔
      ∃ routed, d.Fires s item routed ∧
        submission = d.submission (nextSlot s item) item.answer routed := by
  obtain ⟨_, h, -, -, hno⟩ | ⟨routed, _, hfires, h, -⟩ := d.step_cases s item
  · rw [h]
    constructor
    · intro hsome
      cases hsome
    · rintro ⟨routed, hfires, -⟩
      exact absurd hfires (hno routed)
  · rw [h]
    constructor
    · intro hsome
      exact ⟨routed, hfires, (Option.some.inj hsome).symm⟩
    · rintro ⟨routed', hfires', rfl⟩
      rw [hfires.unique hfires']

/-- The breaker changes only by settling a submission. -/
theorem step_breakerState (s : LoopState) (item : FeedItem) :
    (d.step s item).1.breakerState =
      match (d.step s item).2 with
      | none => s.breakerState
      | some submission =>
        s.breakerState.settle submission.record.routed.route d.config.risk.consecutiveRevertLimit
          submission.record.outcome := by
  obtain ⟨_, h, -⟩ | ⟨_, _, -, h, -⟩ := d.step_cases s item
  · rw [h]
  · rw [h]
    rfl

/-- The books change only by settling a submission. -/
theorem step_books (s : LoopState) (item : FeedItem) :
    (d.step s item).1.dashboard.books =
      match (d.step s item).2 with
      | none => s.dashboard.books
      | some submission => s.dashboard.books.settle submission.record.outcome := by
  obtain ⟨_, h, hbooks, -⟩ | ⟨_, _, -, h, hbooks, -⟩ := d.step_cases s item
  · rw [h]
    exact hbooks
  · rw [h]
    exact hbooks

/-! ## Runs -/

/-- The state after the loop has consumed `items`. -/
def after (router : MultiSourceRouter) (items : List FeedItem) : LoopState :=
  Machine.final d.step (d.start router) items

/-- All calls of `submitter.submit` in the run over `items`, in order. -/
def submissions (router : MultiSourceRouter) (items : List FeedItem) : List Submission :=
  (Machine.outputs d.step (d.start router) items).reduceOption

theorem after_router (router : MultiSourceRouter) (items : List FeedItem) :
    (d.after router items).router = router :=
  Machine.final_invariant (fun s item h => (d.step_router s item).trans h) rfl items

/-- The adapter sees every account of the feed and nothing else. -/
theorem after_kamino (router : MultiSourceRouter) (items : List FeedItem) :
    (d.after router items).kamino =
      KaminoAdapter.after d.klend (items.map FeedItem.rawAcc) := by
  rw [KaminoAdapter.after, Machine.final, List.foldl_map]
  exact Machine.final_map (d.step_kamino) items

/-- A submission of a run is made by an iteration that fires. -/
theorem mem_submissions_iff (router : MultiSourceRouter) (items : List FeedItem)
    (submission : Submission) :
    submission ∈ d.submissions router items ↔
      ∃ before item later routed, items = before ++ item :: later ∧
        d.Fires (d.after router before) item routed ∧
        submission = d.submission (nextSlot (d.after router before) item) item.answer routed := by
  unfold submissions after
  rw [List.reduceOption_mem_iff, Machine.outputs, List.mem_map]
  constructor
  · rintro ⟨step, hstep, hout⟩
    obtain ⟨before, later, hitems, hpre, hpost⟩ := (Machine.mem_steps_iff _ _ _ _).mp hstep
    have hsome : (d.step step.pre step.input).2 = some submission := by rw [hpost, hout]
    obtain ⟨routed, hfires, heq⟩ := (d.step_snd_eq_some_iff _ _ _).mp hsome
    rw [hpre] at hfires heq
    exact ⟨before, step.input, later, routed, hitems, hfires, heq⟩
  · rintro ⟨before, item, later, routed, rfl, hfires, rfl⟩
    exact ⟨_, Machine.step_mem_steps _ _ before item later,
      (d.step_snd_eq_some_iff _ _ _).mpr ⟨routed, hfires, rfl⟩⟩

end Daemon

end Gyrfalcon
