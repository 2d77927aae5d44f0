import Gyrfalcon.Core
import Gyrfalcon.Lib.Race

/-!
# Dual-path submission (`submit/src/dual_path.rs`)

A bundle is sent down the staked-QUIC path and, when a Jito leader is near,
down the Jito path at the same time; `submit` reports whichever leg resolves
first, under one overall timeout.

The last section says when that report can be trusted: `NotIncluded` means that
no fired leg resolved, except when a leg that itself timed out won the race
against a leg that was about to resolve.
-/

namespace Gyrfalcon

open Race

/-- A `std::time::Duration`, in nanoseconds. -/
abbrev Duration := Nat

def Duration.fromMillis (ms : Nat) : Duration := ms * 1000000

/-! ## Send paths -/

inductive PathOutcome (F : Type) where
  | landed (slot : Nat) (actualNetUsd : F)
  | reverted (reason : RevertReason)
  | timedOut
  deriving DecidableEq, Repr

/-- The trait `SendPath`: `send` as a future. -/
structure SendPath (F : Type) where
  send : Bundle F → Timed (PathOutcome F)
  name : String

/-- A `reqwest` client: `post` is the endpoint's own answer to a transaction, a
status code or a transport error. -/
structure HttpClient where
  timeout : Duration
  post : List UInt8 → Timed (Except Unit Nat)

/-- A request under the client's own timeout, which turns into an error. -/
def HttpClient.send (client : HttpClient) (versionedTx : List UInt8) : Timed (Except Unit Nat) :=
  select .leftFirst (client.post versionedTx) (some (client.timeout, .error ()))

/-- `StatusCode::is_success`. -/
def isSuccess (status : Nat) : Bool := 200 ≤ status && status < 300

variable {F : Type}

/-- How both production paths read the reply to a request. -/
def PathOutcome.ofReply (bundle : Bundle F) : Except Unit Nat → PathOutcome F
  | .ok status =>
    if isSuccess status then
      .landed ((bundle.sim.routed.candidate.slot + 1) % 2 ^ 64) bundle.sim.routed.expected.netUsd
    else .reverted (.programError "transaction failed on-chain")
  | .error () => .timedOut

def httpSendPath (name : String) (client : HttpClient) : SendPath F where
  send bundle := (client.send bundle.versionedTx).mapValue (PathOutcome.ofReply bundle)
  name := name

/-- `StakedQuicSendPath`, for an endpoint that answers `post`. -/
def stakedQuicSendPath (post : List UInt8 → Timed (Except Unit Nat)) : SendPath F :=
  httpSendPath "staked_quic" ⟨Duration.fromMillis 800, post⟩

/-- `JitoSendPath`. -/
def jitoSendPath (post : List UInt8 → Timed (Except Unit Nat)) : SendPath F :=
  httpSendPath "jito_block_engine" ⟨Duration.fromMillis 1500, post⟩

/-! ## The submitter -/

/-- The trait `LeaderScheduleProvider`: `has_jito_leader_in_window`. -/
abbrev LeaderScheduleProvider := Nat → Nat → Bool

/-- `StaticLeaderSchedule`, on its set of Jito slots. -/
def staticLeaderSchedule (jitoSlots : List Nat) : LeaderScheduleProvider :=
  fun currentSlot leadersAhead =>
    let lastSlot := (currentSlot + leadersAhead) % 2 ^ 64
    (List.range (lastSlot + 1 - currentSlot)).any fun k => jitoSlots.contains (currentSlot + k)

structure DualPathSubmitter (F : Type) where
  stakedQuic : SendPath F
  jito : SendPath F
  timeout : Duration
  leadersAhead : Nat
  leaderSchedule : Option LeaderScheduleProvider

namespace DualPathSubmitter

def new (stakedQuic jito : SendPath F) (timeout : Duration) : DualPathSubmitter F :=
  ⟨stakedQuic, jito, timeout, 2, none⟩

def withLeaderSchedule (self : DualPathSubmitter F) (leadersAhead : Nat)
    (schedule : LeaderScheduleProvider) : DualPathSubmitter F :=
  { self with leadersAhead := leadersAhead, leaderSchedule := some schedule }

def shouldSendJito (self : DualPathSubmitter F) (bundle : Bundle F) : Bool :=
  match self.leaderSchedule with
  | some schedule => schedule bundle.sim.routed.candidate.slot self.leadersAhead
  | none => true

/-- The final `match` of both branches of `submit`. -/
def report : PathOutcome F → SubmitOutcome F
  | .landed slot actualNetUsd => .landed slot actualNetUsd
  | .reverted reason => .reverted reason
  | .timedOut => .notIncluded

/-- `submit`; `order` is the branch `tokio::select!` happens to poll first. -/
def submit (self : DualPathSubmitter F) (order : PollOrder) (bundle : Bundle F) :
    SubmitOutcome F :=
  if self.shouldSendJito bundle then
    let race := select order
      ((self.stakedQuic.send bundle).mapValue fun result => (self.stakedQuic.name, result))
      ((self.jito.send bundle).mapValue fun result => (self.jito.name, result))
    match Race.timeout self.timeout race with
    | some (_pathName, result) => report result
    | none => .notIncluded
  else
    match Race.timeout self.timeout (self.stakedQuic.send bundle) with
    | some result => report result
    | none => report .timedOut

/-! ## What `NotIncluded` means -/

/-- The legs that `submit` fires. -/
def firedLegs (self : DualPathSubmitter F) (bundle : Bundle F) : List (SendPath F) :=
  if self.shouldSendJito bundle then [self.stakedQuic, self.jito] else [self.stakedQuic]

/-- The leg resolves within the submitter's timeout, with a terminal outcome. -/
def Resolves (self : DualPathSubmitter F) (bundle : Bundle F) (leg : SendPath F) : Prop :=
  ∃ t result, leg.send bundle = some (t, result) ∧ t ≤ self.timeout ∧ result ≠ .timedOut

/-- `first` gives up by itself before `second`, polled after it, resolves. -/
def GivesUpBefore (self : DualPathSubmitter F) (order : PollOrder) (bundle : Bundle F)
    (first second : SendPath F) : Prop :=
  ∃ s t result, first.send bundle = some (s, .timedOut) ∧ second.send bundle = some (t, result) ∧
    order.Beats s t ∧ t ≤ self.timeout ∧ result ≠ .timedOut

theorem report_eq_notIncluded_iff (result : PathOutcome F) :
    report result = .notIncluded ↔ result = .timedOut := by
  cases result <;> simp [report]

variable (self : DualPathSubmitter F) (order : PollOrder) (bundle : Bundle F)

/-- The future whose value `submit` reports. -/
def raced : Timed (PathOutcome F) :=
  if self.shouldSendJito bundle then
    select order (self.stakedQuic.send bundle) (self.jito.send bundle)
  else self.stakedQuic.send bundle

theorem submit_eq : self.submit order bundle =
    ((Race.timeout self.timeout (self.raced order bundle)).map report).getD .notIncluded := by
  unfold submit raced
  by_cases h : self.shouldSendJito bundle
  · rw [if_pos h, if_pos h]
    have hnames : (select order
        ((self.stakedQuic.send bundle).mapValue fun result => (self.stakedQuic.name, result))
        ((self.jito.send bundle).mapValue fun result => (self.jito.name, result))).mapValue
          Prod.snd = select order (self.stakedQuic.send bundle) (self.jito.send bundle) := by
      rw [← select_mapValue]
      simp [Timed.mapValue, Function.comp_def, Prod.map]
    rw [← hnames, timeout_mapValue]
    simp only
    split
    · next hrace => rw [hrace]; rfl
    · next hrace => rw [hrace]; rfl
  · rw [if_neg h, if_neg h]
    split
    · next hrace => rw [hrace]; rfl
    · next hrace => rw [hrace]; rfl

/-- `NotIncluded` is read off the raced future alone. -/
theorem submit_ne_notIncluded_iff : self.submit order bundle ≠ .notIncluded ↔
    ∃ t result, self.raced order bundle = some (t, result) ∧ t ≤ self.timeout ∧
      result ≠ .timedOut := by
  rw [submit_eq]
  cases hrace : Race.timeout self.timeout (self.raced order bundle) with
  | none =>
    simp only [Option.map_none, Option.getD_none, ne_eq, not_true_eq_false, false_iff]
    rintro ⟨t, result, hraced, ht, -⟩
    have := (timeout_eq_some_iff _ _ _).mpr ⟨t, ht, hraced⟩
    rw [hrace] at this
    cases this
  | some result =>
    obtain ⟨t, ht, hraced⟩ := (timeout_eq_some_iff _ _ _).mp hrace
    simp [hraced, ht, report_eq_notIncluded_iff]

variable {self order bundle}

/-- In a race of two legs, a leg that resolves is seen unless the other one
gave up before it. -/
theorem select_resolves_iff {a b : SendPath F} (ha : self.Resolves bundle a) :
    (∃ t result, select order (a.send bundle) (b.send bundle) = some (t, result) ∧
      t ≤ self.timeout ∧ result ≠ .timedOut) ↔ ¬ self.GivesUpBefore order.swap bundle b a := by
  obtain ⟨s, x, hsend, hs, hx⟩ := ha
  unfold GivesUpBefore
  rw [hsend]
  cases hb : b.send bundle with
  | none => simpa [select] using ⟨hs, hx⟩
  | some ty =>
    obtain ⟨t, y⟩ := ty
    by_cases hbeats : order.Beats s t
    · simp [select, hbeats, hs, hx, PollOrder.swap_beats_iff]
    · have hle := ((order.swap_beats_iff s t).mpr hbeats).le
      simp [select, hbeats, hs, hx, PollOrder.swap_beats_iff, hle.trans hs]

theorem GivesUpBefore.resolves {first second : SendPath F}
    (h : self.GivesUpBefore order bundle first second) : self.Resolves bundle second := by
  obtain ⟨s, t, result, -, hsecond, -, ht, hresult⟩ := h
  exact ⟨t, result, hsecond, ht, hresult⟩

/-- **When `NotIncluded` can be trusted.**  A fired leg that resolves within the
timeout keeps `submit` from answering `NotIncluded`, if and only if it is not
the case that both legs fire and one of them gives up before the other one
resolves. -/
theorem submit_sees_resolving_leg_iff (self : DualPathSubmitter F) (order : PollOrder)
    (bundle : Bundle F) :
    ((∃ leg ∈ self.firedLegs bundle, self.Resolves bundle leg) →
        self.submit order bundle ≠ .notIncluded) ↔
      ¬ (self.shouldSendJito bundle = true ∧
        (self.GivesUpBefore order bundle self.stakedQuic self.jito ∨
          self.GivesUpBefore order.swap bundle self.jito self.stakedQuic)) := by
  rw [submit_ne_notIncluded_iff]
  unfold raced firedLegs
  by_cases h : self.shouldSendJito bundle
  · simp only [h, ↓reduceIte, List.mem_cons, List.not_mem_nil, or_false, exists_eq_or_imp,
      exists_eq_left, true_and]
    have hjito (hres : self.Resolves bundle self.jito) :
        (∃ t result, select order (self.stakedQuic.send bundle) (self.jito.send bundle) =
            some (t, result) ∧ t ≤ self.timeout ∧ result ≠ .timedOut) ↔
          ¬ self.GivesUpBefore order bundle self.stakedQuic self.jito := by
      rw [← select_swap, select_resolves_iff hres, PollOrder.swap_swap]
    constructor
    · rintro hseen (hgives | hgives)
      · exact (hjito hgives.resolves).mp (hseen (Or.inr hgives.resolves)) hgives
      · exact (select_resolves_iff hgives.resolves).mp (hseen (Or.inl hgives.resolves)) hgives
    · intro hno hres
      rcases hres with hres | hres
      · exact (select_resolves_iff hres).mpr fun hgives => hno (Or.inr hgives)
      · exact (hjito hres).mpr fun hgives => hno (Or.inl hgives)
  · simp only [h, Bool.false_eq_true, ↓reduceIte, List.mem_singleton, exists_eq_left, false_and,
      not_false_eq_true, iff_true]
    exact id

/-- The production legs with an endpoint that never answers the staked path and
one that accepts the Jito bundle after a second: the staked client gives up
after 800 ms, and the landed bundle is reported as not included. -/
theorem submit_misses_landed_bundle :
    let bundle : Bundle ℚ :=
      ⟨⟨⟨⟨.kamino, Bytes32.fill 1, Bytes32.fill 2, Bytes32.fill 3, 9 / 10, 1000, 100⟩, 500,
        ⟨.kamino, Bytes32.fill 4, 5⟩, ⟨40, 2, 1, 1 / 2, 10, 53 / 2⟩⟩, true, 150000, 900, true⟩,
        [0, 0, 0, 0], []⟩
    let submitter := DualPathSubmitter.new (stakedQuicSendPath fun _ => none)
      (jitoSendPath fun _ => some (Duration.fromMillis 1000, .ok 200)) (Duration.fromMillis 1500)
    submitter.jito ∈ submitter.firedLegs bundle ∧
      submitter.jito.send bundle = some (Duration.fromMillis 1000, .landed 101 (53 / 2)) ∧
      Duration.fromMillis 1000 ≤ submitter.timeout ∧
      ∀ order, submitter.submit order bundle = .notIncluded := by
  intro bundle submitter
  refine ⟨by simp [firedLegs, shouldSendJito, submitter, DualPathSubmitter.new], by decide +kernel,
    by decide, fun order => ?_⟩
  cases order <;> decide +kernel

end DualPathSubmitter

end Gyrfalcon
