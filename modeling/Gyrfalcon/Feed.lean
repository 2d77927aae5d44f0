import Gyrfalcon.Daemon

/-!
# The loop and its feed

Two things the loop is meant to keep in step with the account stream and does
not.

* The sync-lag breaker: the loop never calls `set_protocol_sync_lag_halted`, so
  nothing stops a submission on a lagging adapter but the feed itself.
* The flash router: `main` builds an empty one and never shows it an account.
-/

namespace Gyrfalcon

namespace Daemon

variable (d : Daemon)

/-! ## Sync lag -/

/-- The highest slot of a Kamino-owned account among `items`. -/
def newestSlot (items : List FeedItem) : Nat :=
  items.foldl (fun newest item =>
    if item.rawAcc.owner = kaminoProgramId then max newest item.rawAcc.slot else newest) 0

theorem after_currentSlot (router : MultiSourceRouter) (items : List FeedItem) :
    (d.after router items).kamino.currentSlot = newestSlot items := by
  refine Machine.final_map (p := fun s : LoopState => s.kamino.currentSlot) (fun s item => ?_) items
  rw [step_kamino]
  exact KaminoAdapter.onAccountUpdate_currentSlot _ _

/-- The lag an iteration submits at: how far its own account is behind the
newest one. -/
theorem syncLagSlots_of_fires {router : MultiSourceRouter} {before : List FeedItem}
    {item : FeedItem} {routed : RoutedCandidate ℚ}
    (h : d.Fires (d.after router before) item routed) :
    (d.step (d.after router before) item).1.kamino.syncLagSlots =
      newestSlot before - item.rawAcc.slot := by
  obtain ⟨hkind, -, -, -, hsynced⟩ := KaminoAdapter.of_onAccountUpdate_some h.candidate
  have howner := KaminoAdapter.owner_of_kindOf hkind
  rw [step_kamino, KaminoAdapter.syncLagSlots, hsynced, KaminoAdapter.onAccountUpdate_currentSlot,
    if_pos howner, after_currentSlot]
  omega

/-- **When the loop respects the sync-lag halt.**  No iteration of a run submits
at a lag above `sync_lag_halt_slots`, if and only if every account that reaches
a submission is within that many slots of the newest one delivered before it. -/
theorem submits_in_sync_iff (d : Daemon) (router : MultiSourceRouter) (items : List FeedItem) :
    (∀ step ∈ Machine.steps d.step (d.start router) items, step.output.isSome →
        step.post.kamino.syncLagSlots ≤ d.config.risk.syncLagHaltSlots) ↔
      ∀ before item later, items = before ++ item :: later →
        (∃ routed, d.Fires (d.after router before) item routed) →
          newestSlot before ≤ item.rawAcc.slot + d.config.risk.syncLagHaltSlots := by
  constructor
  · rintro h before item later rfl ⟨routed, hfires⟩
    have hsome := (d.step_snd_eq_some_iff _ _ _).mpr ⟨routed, hfires, rfl⟩
    have hlag := h _ (Machine.step_mem_steps _ _ before item later) (by
      exact Option.isSome_iff_exists.mpr ⟨_, hsome⟩)
    have hfires' := d.syncLagSlots_of_fires hfires
    rw [after] at hfires'
    rw [hfires'] at hlag
    omega
  · intro h step hstep hsome
    obtain ⟨before, later, hitems, hpre, hpost⟩ := (Machine.mem_steps_iff _ _ _ _).mp hstep
    obtain ⟨submission, hout⟩ := Option.isSome_iff_exists.mp hsome
    have hstepsome : (d.step step.pre step.input).2 = some submission := by rw [hpost, hout]
    obtain ⟨routed, hfires, -⟩ := (d.step_snd_eq_some_iff _ _ _).mp hstepsome
    have hstate : step.pre = d.after router before := hpre
    rw [hstate] at hfires hpost
    have hlag := d.syncLagSlots_of_fires hfires
    rw [hpost] at hlag
    have hle := h before step.input later hitems ⟨routed, hfires⟩
    rw [hlag]
    omega

/-- The obligation arrives ten slots behind the reserve: the loop submits, at
twice the configured lag. -/
theorem submits_while_stale :
    let d := Daemon.sample 3 (by decide)
    let router := MultiSourceRouter.new.addReserve (Bytes32.fill 4) .kamino (Bytes32.fill 2)
      1000000000000 (some 0)
    let items : List FeedItem :=
      [⟨Klend.sampleMarket 100, .notIncluded⟩, ⟨Klend.sampleReserve 1 100, .notIncluded⟩,
        ⟨Klend.sampleObligation (Bytes32.fill 5) 90, .notIncluded⟩]
    d.mode = .live ∧ d.config.risk.syncLagHaltSlots = 5 ∧
      ∃ step ∈ Machine.steps d.step (d.start router) items,
        step.output.isSome = true ∧ step.post.kamino.syncLagSlots = 10 := by
  decide +kernel

/-! ## The flash router -/

/-- The reserve a Kamino-owned `Reserve` update decodes to. -/
def decodedReserve (klend : Klend.Interface) (item : FeedItem) : Option (Pubkey × Klend.Reserve) :=
  if KaminoAdapter.kindOf klend item.rawAcc = some .reserve then
    (klend.reserve item.rawAcc.data).map fun reserve => (item.rawAcc.pubkey, reserve)
  else none

/-- The most recently delivered decodable update of the reserve `key`. -/
def latestReserve (klend : Klend.Interface) (key : Pubkey) (items : List FeedItem) :
    Option Klend.Reserve :=
  (LastWrite.writesTo (decodedReserve klend) key items).getLast?

/-- Whatever the stream shows to be fundable, the router finds a source for. -/
def RouterReflectsStream (s : LoopState) (items : List FeedItem) : Prop :=
  ∀ mint amount, (∃ key reserve, latestReserve d.klend key items = some reserve ∧
      reserve.mintPubkey = mint ∧ reserve.flashLoanFeeSf ≠ kaminoFlashLoanDisabled ∧
      amount ≤ reserve.availableLiquidity) →
    (s.router.route mint amount).isSome

/-- **When the router reflects the stream.**  After a run of `main` the router
knows every source the stream has shown, if and only if the stream has shown
none: the latest update of every reserve has flash loans disabled. -/
theorem routerReflectsStream_iff (d : Daemon) (items : List FeedItem) :
    d.RouterReflectsStream (Machine.final d.step d.main items) items ↔
      ∀ key reserve, latestReserve d.klend key items = some reserve →
        reserve.flashLoanFeeSf = kaminoFlashLoanDisabled := by
  have hrouter : (Machine.final d.step d.main items).router = MultiSourceRouter.new :=
    d.after_router MultiSourceRouter.new items
  have hnone : ∀ mint amount, MultiSourceRouter.new.route mint amount = none := fun _ _ => rfl
  unfold RouterReflectsStream
  rw [hrouter]
  constructor
  · intro h key reserve hlatest
    by_contra henabled
    have hsome := h reserve.mintPubkey reserve.availableLiquidity
      ⟨key, reserve, hlatest, rfl, henabled, le_refl _⟩
    rw [hnone] at hsome
    cases hsome
  · rintro h mint amount ⟨key, reserve, hlatest, -, henabled, -⟩
    exact absurd (h key reserve hlatest) henabled

/-- One reserve with free flash loans and deep liquidity, delivered once: `main`
has no route for a single unit of its mint. -/
theorem router_misses_streamed_reserve :
    let d := Daemon.sample 3 (by decide)
    let items : List FeedItem := [⟨Klend.sampleReserve 1 100, .notIncluded⟩]
    latestReserve d.klend (Bytes32.fill 1) items =
        some ⟨Bytes32.fill 2, 2 ^ 60, 6, 0, 0, 1000000000000, 0⟩ ∧
      (Machine.final d.step d.main items).router.route (Bytes32.fill 2) 1 = none := by
  decide +kernel

end Daemon

end Gyrfalcon
