import Gyrfalcon.FlashSelection
import Gyrfalcon.Kamino
import Gyrfalcon.Lib.Machine
import Gyrfalcon.Lib.TextLines

/-!
# Historical replay

The replay binary judges recorded liquidations: was the breach detected, and
does the router pick the reserve that was deepest at the time?  One router,
filled from all events, answers for every one of them, so a verdict can depend
on the other events of the file.  `verdictIsPerEvent_iff` says when it does not.
-/

namespace Gyrfalcon

/-! ## Events (`sim/src/fixture_schema.rs`) -/

/-- What the replay reads of a recorded liquidation. -/
structure HistoricalLiquidationEvent where
  protocol : Protocol
  positionId : Pubkey
  debtMint : Pubkey
  breachSlot : Nat
  healthFactorAtBreachSlot : ℚ
  obligationDataBase64 : List Char
  obligationOwner : Pubkey
  bestFlashReserve : Pubkey
  bestFlashReserveAvailableLiquidity : Nat
  deriving DecidableEq, Repr

/-- `decode` is the standard base64 engine. -/
def decodeBase64 (decode : List Char → Option (List UInt8)) (s : List Char) :
    Option (List UInt8) :=
  if s = [] then some [] else decode (TextLines.trim s)

/-- The event brings no obligation to decode. -/
def HistoricalLiquidationEvent.NoRawBytes (decode : List Char → Option (List UInt8))
    (event : HistoricalLiquidationEvent) : Prop :=
  ∀ bytes, decodeBase64 decode event.obligationDataBase64 = some bytes → bytes = []

/-! ## Verdicts (`sim/src/replay.rs`) -/

structure EventResult where
  positionId : Pubkey
  detected : Bool
  routedReserveHadSufficientLiquidity : Option Bool
  feasibilityChecked : Bool
  deriving DecidableEq, Repr

structure ReplayReport where
  results : List EventResult
  deriving DecidableEq, Repr

namespace ReplayReport

def allDetected (self : ReplayReport) : Bool :=
  !self.results.isEmpty && self.results.all fun r => r.detected

def allRoutedWithSufficientLiquidity (self : ReplayReport) : Bool :=
  !self.results.isEmpty &&
    self.results.all fun r => r.routedReserveHadSufficientLiquidity == some true

end ReplayReport

section ReplayEvent

variable {H : Type} (onAccountUpdate : H → AccountUpdate → H × Option (BreachCandidate ℚ))
  (decode : List Char → Option (List UInt8))

/-- The update that an event's raw bytes are replayed as. -/
def HistoricalLiquidationEvent.update (event : HistoricalLiquidationEvent) (data : List UInt8) :
    AccountUpdate :=
  ⟨event.positionId, event.obligationOwner, data, event.breachSlot⟩

def replayEvent (event : HistoricalLiquidationEvent) (health : H) (router : FlashSourceRouter) :
    H × EventResult :=
  let (health, detected) :=
    match decodeBase64 decode event.obligationDataBase64 with
    | some (byte :: bytes) =>
      let (health, candidate) := onAccountUpdate health (event.update (byte :: bytes))
      (health, candidate.isSome)
    -- no raw bytes: the recorded health factor decides
    | _ => (health, decide (event.healthFactorAtBreachSlot < 1))
  let routedReserveHadSufficientLiquidity :=
    if detected then
      let routed := router event.debtMint event.bestFlashReserveAvailableLiquidity
      some (routed.any fun r => r.reserve = event.bestFlashReserve)
    else none
  (health,
    { positionId := event.positionId
      detected
      routedReserveHadSufficientLiquidity
      feasibilityChecked := false })

/-- Without raw bytes the adapter is neither asked nor told. -/
theorem replayEvent_of_noRawBytes {event : HistoricalLiquidationEvent}
    (h : event.NoRawBytes decode) (health : H) (router : FlashSourceRouter) :
    replayEvent onAccountUpdate decode event health router =
      (health,
        { positionId := event.positionId
          detected := decide (event.healthFactorAtBreachSlot < 1)
          routedReserveHadSufficientLiquidity :=
            if event.healthFactorAtBreachSlot < 1 then
              some ((router event.debtMint event.bestFlashReserveAvailableLiquidity).any fun r =>
                r.reserve = event.bestFlashReserve)
            else none
          feasibilityChecked := false }) := by
  unfold replayEvent
  cases hdata : decodeBase64 decode event.obligationDataBase64 with
  | none => simp
  | some bytes =>
    obtain rfl : bytes = [] := h bytes hdata
    simp

end ReplayEvent

/-! ## The binary (`sim/src/bin/replay.rs`) -/

inductive ExitCode where
  | success
  | failure
  deriving DecidableEq, Repr

/-- The router of `main`: one entry for each reserve some event names. -/
def populate (events : List HistoricalLiquidationEvent) : MultiSourceRouter :=
  events.foldl (fun router event =>
    router.addReserve event.bestFlashReserve .kamino event.debtMint
      event.bestFlashReserveAvailableLiquidity (some 0)) MultiSourceRouter.new

section Main

variable (klend : Klend.Interface) (decode : List Char → Option (List UInt8))

/-- The loop of `main` over the events, with its router. -/
def replay (router : MultiSourceRouter) (events : List HistoricalLiquidationEvent) :
    ReplayReport where
  results := Machine.outputs
    (fun kamino event =>
      match event.protocol with
      | .kamino =>
        replayEvent (KaminoAdapter.onAccountUpdate klend) decode event kamino router.route)
    KaminoAdapter.new events

/-- The exit code of `main` for loaded events; `router` is the populated one in
some order of iteration. -/
def replayMain (router : MultiSourceRouter) (events : List HistoricalLiquidationEvent) :
    ExitCode :=
  if events.isEmpty then .failure
  else
    let report := replay klend decode router events
    if report.allDetected && report.allRoutedWithSufficientLiquidity then .success
    else .failure

end Main

/-! ## One event among others -/

/-- What an event is tracked as. -/
def HistoricalLiquidationEvent.reserveInfo (event : HistoricalLiquidationEvent) : ReserveInfo :=
  ⟨.kamino, event.debtMint, event.bestFlashReserveAvailableLiquidity, some 0⟩

/-- The last event that names the reserve. -/
def lastNaming (key : Pubkey) (events : List HistoricalLiquidationEvent) :
    Option HistoricalLiquidationEvent :=
  (events.filter fun event => event.bestFlashReserve = key).getLast?

theorem populate_concat (events : List HistoricalLiquidationEvent)
    (event : HistoricalLiquidationEvent) :
    populate (events ++ [event]) =
      (populate events).addReserve event.bestFlashReserve .kamino event.debtMint
        event.bestFlashReserveAvailableLiquidity (some 0) := by
  rw [populate, List.foldl_append]
  rfl

/-- A later event overwrites what an earlier one said of its reserve. -/
theorem lookup_populate (key : Pubkey) (events : List HistoricalLiquidationEvent) :
    (populate events).reserves.lookup key =
      (lastNaming key events).map HistoricalLiquidationEvent.reserveInfo := by
  induction events using List.reverseRecOn with
  | nil => rfl
  | append_singleton events event ih =>
    rw [populate_concat, lastNaming, List.filter_append]
    show ((populate events).reserves.insert event.bestFlashReserve event.reserveInfo).lookup key = _
    by_cases hkey : event.bestFlashReserve = key
    · subst hkey
      rw [AList.lookup_insert, List.filter_cons_of_pos (by simp), List.filter_nil,
        List.getLast?_concat]
      rfl
    · rw [AList.lookup_insert_ne (Ne.symm hkey), List.filter_cons_of_neg (by simpa using hkey),
        List.filter_nil, List.append_nil]
      exact ih

theorem canFund_populate_iff {events : List HistoricalLiquidationEvent} {mint : Pubkey}
    {amount : Nat} {key : Pubkey} {info : ReserveInfo} {feeBps : Nat} :
    (populate events).CanFund mint amount key info feeBps ↔
      ∃ event, lastNaming key events = some event ∧ event.debtMint = mint ∧
        amount ≤ event.bestFlashReserveAvailableLiquidity ∧ info = event.reserveInfo ∧
        feeBps = 0 := by
  constructor
  · intro h
    have htracked := h.tracked
    rw [lookup_populate, Option.map_eq_some_iff] at htracked
    obtain ⟨event, hlast, rfl⟩ := htracked
    exact ⟨event, hlast, h.mint, h.liquidity, rfl, (Option.some.inj h.enabled).symm⟩
  · rintro ⟨event, hlast, hmint, hliquidity, rfl, rfl⟩
    refine ⟨?_, hmint, hliquidity, (fun hprovider => nomatch hprovider), rfl⟩
    rw [lookup_populate, hlast]
    rfl

/-- Among recorded reserves only depth counts. -/
theorem better_reserveInfo_iff (a b : HistoricalLiquidationEvent) :
    Better (a.reserveInfo, 0) (b.reserveInfo, 0) ↔
      b.bestFlashReserveAvailableLiquidity < a.bestFlashReserveAvailableLiquidity := by
  simp [Better, HistoricalLiquidationEvent.reserveInfo]

/-- The event's reserve is last recorded with the event's mint, deep enough for
it, and deeper than any other reserve last recorded with that mint. -/
def DeepestOfItsMint (events : List HistoricalLiquidationEvent)
    (event : HistoricalLiquidationEvent) : Prop :=
  ∃ last, lastNaming event.bestFlashReserve events = some last ∧
    last.debtMint = event.debtMint ∧
    event.bestFlashReserveAvailableLiquidity ≤ last.bestFlashReserveAvailableLiquidity ∧
    ∀ key other, key ≠ event.bestFlashReserve → lastNaming key events = some other →
      other.debtMint = event.debtMint →
        other.bestFlashReserveAvailableLiquidity < last.bestFlashReserveAvailableLiquidity

theorem routes_event_iff (events : List HistoricalLiquidationEvent)
    (event : HistoricalLiquidationEvent) :
    (∀ router, (populate events).SameEntries router →
        ((router.route event.debtMint event.bestFlashReserveAvailableLiquidity).any fun r =>
          r.reserve = event.bestFlashReserve) = true) ↔
      DeepestOfItsMint events event := by
  rw [MultiSourceRouter.routes_in_every_order_iff]
  simp only [canFund_populate_iff]
  constructor
  · rintro ⟨_, _, ⟨last, hlast, hmint, hliquidity, rfl, rfl⟩, hbest⟩
    refine ⟨last, hlast, hmint, hliquidity, ?_⟩
    intro key other hne hother hmint'
    by_contra hdeep
    have hbetter := hbest key other.reserveInfo 0
      ⟨other, hother, hmint', by omega, rfl, rfl⟩ hne
    exact hdeep ((better_reserveInfo_iff last other).mp hbetter)
  · rintro ⟨last, hlast, hmint, hliquidity, hdeepest⟩
    refine ⟨last.reserveInfo, 0, ⟨last, hlast, hmint, hliquidity, rfl, rfl⟩, ?_⟩
    rintro key _ _ ⟨other, hother, hmint', -, rfl, rfl⟩ hne
    exact (better_reserveInfo_iff last other).mpr (hdeepest key other hne hother hmint')

/-- Alone, an event is always the deepest. -/
theorem deepestOfItsMint_singleton (event : HistoricalLiquidationEvent) :
    DeepestOfItsMint [event] event := by
  refine ⟨event, ?_, rfl, le_refl _, ?_⟩
  · simp [lastNaming]
  · intro key other hne hother
    simp [lastNaming, Ne.symm hne] at hother

/-! ## Verdicts and the other events -/

/-- What the replay says of an event. -/
def EventResult.verdict (result : EventResult) : Bool × Option Bool :=
  (result.detected, result.routedReserveHadSufficientLiquidity)

section Verdicts

variable (klend : Klend.Interface) (decode : List Char → Option (List UInt8))

/-- In every order of iteration, `event` gets the verdict among the others that
it gets alone. -/
def VerdictIsPerEvent (before : List HistoricalLiquidationEvent)
    (event : HistoricalLiquidationEvent) (after : List HistoricalLiquidationEvent) : Prop :=
  ∀ router alone, (populate (before ++ event :: after)).SameEntries router →
    (populate [event]).SameEntries alone →
      (replay klend decode router (before ++ event :: after)).results[before.length]?.map
          EventResult.verdict =
        (replay klend decode alone [event]).results.head?.map EventResult.verdict

variable {decode} {event : HistoricalLiquidationEvent}

/-- The verdict depends on the event and the router, not on the events before. -/
theorem verdict_replay (h : event.NoRawBytes decode) (router : MultiSourceRouter)
    (before after : List HistoricalLiquidationEvent) :
    (replay klend decode router (before ++ event :: after)).results[before.length]?.map
        EventResult.verdict =
      some (decide (event.healthFactorAtBreachSlot < 1),
        if event.healthFactorAtBreachSlot < 1 then
          some ((router.route event.debtMint event.bestFlashReserveAvailableLiquidity).any fun r =>
            r.reserve = event.bestFlashReserve)
        else none) := by
  rw [replay, Machine.outputs_getElem?]
  cases hprotocol : event.protocol
  simp only [replayEvent_of_noRawBytes _ _ h]
  rfl

/-- Alone, a detected event is routed to its own reserve. -/
theorem verdict_alone (h : event.NoRawBytes decode) {alone : MultiSourceRouter}
    (hsame : (populate [event]).SameEntries alone) :
    (replay klend decode alone [event]).results.head?.map EventResult.verdict =
      some (decide (event.healthFactorAtBreachSlot < 1),
        if event.healthFactorAtBreachSlot < 1 then some true else none) := by
  have hroutes := (routes_event_iff [event] event).mpr (deepestOfItsMint_singleton event)
  have hverdict := verdict_replay klend h alone [] []
  rw [hroutes alone hsame] at hverdict
  rw [List.head?_eq_getElem?]
  exact hverdict

end Verdicts

/-- **When replay verdicts are per event.**  An event without raw bytes gets the
verdict it gets alone, in every order of iteration, if and only if it is not
detected or its reserve is the deepest of its mint in the whole file. -/
theorem verdictIsPerEvent_iff (klend : Klend.Interface) (decode : List Char → Option (List UInt8))
    (before : List HistoricalLiquidationEvent) (event : HistoricalLiquidationEvent)
    (after : List HistoricalLiquidationEvent) (hraw : event.NoRawBytes decode) :
    VerdictIsPerEvent klend decode before event after ↔
      1 ≤ event.healthFactorAtBreachSlot ∨
        DeepestOfItsMint (before ++ event :: after) event := by
  by_cases hdetected : event.healthFactorAtBreachSlot < 1
  · rw [or_iff_right (not_le.mpr hdetected), ← routes_event_iff]
    constructor
    · intro h router hrouter
      have hverdict := h router (populate [event]) hrouter (.refl _)
      rw [verdict_replay klend hraw, verdict_alone klend hraw (.refl _),
        if_pos hdetected, if_pos hdetected, Option.some.injEq, Prod.mk.injEq] at hverdict
      exact Option.some.inj hverdict.2
    · intro h router alone hrouter halone
      rw [verdict_replay klend hraw, verdict_alone klend hraw halone, h router hrouter]
  · refine ⟨fun _ => Or.inl (not_lt.mp hdetected), fun _ router alone _ halone => ?_⟩
    rw [verdict_replay klend hraw, verdict_alone klend hraw halone, if_neg hdetected,
      if_neg hdetected]

/-- A breach of a position in the mint `[2; 32]`, with `reserve` the best source. -/
def sampleEvent (position reserve : Pubkey) (liquidity : Nat) : HistoricalLiquidationEvent where
  protocol := .kamino
  positionId := position
  debtMint := Bytes32.fill 2
  breachSlot := 100
  healthFactorAtBreachSlot := 9 / 10
  obligationDataBase64 := []
  obligationOwner := Bytes32.fill 9
  bestFlashReserve := reserve
  bestFlashReserveAvailableLiquidity := liquidity

theorem noRawBytes_sampleEvent (decode : List Char → Option (List UInt8))
    (position reserve : Pubkey) (liquidity : Nat) :
    (sampleEvent position reserve liquidity).NoRawBytes decode :=
  fun _ hbytes => (Option.some.inj hbytes).symm

/-- The other event of the mint names a shallower reserve. -/
theorem verdictIsPerEvent_iff_shallower :
    let event := sampleEvent (Bytes32.fill 5) (Bytes32.fill 6) 1000000
    let other := sampleEvent (Bytes32.fill 7) (Bytes32.fill 8) 500000
    VerdictIsPerEvent Klend.sample (fun _ => some []) [other] event [] := by
  intro event other
  refine (verdictIsPerEvent_iff _ _ _ _ _ (noRawBytes_sampleEvent _ _ _ _)).mpr (.inr ?_)
  refine ⟨event, by decide +kernel, rfl, le_refl _, ?_⟩
  intro key named hne hnamed hmint
  have hother : named = other := by
    by_cases hkey : other.bestFlashReserve = key
    · subst hkey
      exact Option.some.inj (hnamed.symm.trans (by decide +kernel))
    · simp [lastNaming, Ne.symm hne, hkey] at hnamed
  subst hother
  decide

/-- A second event of the mint names a deeper reserve.  Each event passes alone;
in one file the first is reported as badly routed and the replay fails. -/
theorem verdict_depends_on_other_event :
    let first := sampleEvent (Bytes32.fill 5) (Bytes32.fill 6) 1000000
    let second := sampleEvent (Bytes32.fill 7) (Bytes32.fill 8) 2000000
    let decode : List Char → Option (List UInt8) := fun _ => some []
    let verdicts (events : List HistoricalLiquidationEvent) :=
      (replay Klend.sample decode (populate events) events).results.map EventResult.verdict
    let exitCode (events : List HistoricalLiquidationEvent) :=
      replayMain Klend.sample decode (populate events) events
    (∀ event ∈ [first, second], event.NoRawBytes decode) ∧
      verdicts [first, second] = [(true, some false), (true, some true)] ∧
      verdicts [first] = [(true, some true)] ∧
      exitCode [first] = .success ∧ exitCode [second] = .success ∧
      exitCode [first, second] = .failure ∧
      ¬ VerdictIsPerEvent Klend.sample decode [] first [second] := by
  intro first second decode verdicts exitCode
  refine ⟨?_, by decide +kernel, by decide +kernel, by decide +kernel, by decide +kernel,
    by decide +kernel, ?_⟩
  · intro event hevent
    rcases List.mem_cons.mp hevent with rfl | hevent
    · exact noRawBytes_sampleEvent _ _ _ _
    · rw [List.mem_singleton.mp hevent]
      exact noRawBytes_sampleEvent _ _ _ _
  · intro h
    have hverdict := h (populate [first, second]) (populate [first]) (.refl _)
      (.refl _)
    revert hverdict
    decide +kernel

end Gyrfalcon
