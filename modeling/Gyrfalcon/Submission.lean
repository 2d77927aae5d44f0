import Gyrfalcon.Daemon

/-!
# What the daemon submits

The guarantees of breach detection, sizing, routing, profit estimate and
simulation, put together: what holds of every bundle of every run, whatever the
feed delivers, the router tracks and the submitter answers.
-/

namespace Gyrfalcon

namespace Daemon

variable (d : Daemon)

/-- What a route must satisfy before capital is put behind it. -/
structure SoundRoute (router : MultiSourceRouter) (routed : RoutedCandidate ℚ) : Prop where
  breaching : routed.candidate.healthFactor < 1
  repayPos : 0 < routed.repayAmount
  repayLe : routed.repayAmount ≤ min routed.candidate.closeFactorMaxRepay 50000000000
  funded : ∃ info, router.CanFund routed.candidate.debtMint routed.repayAmount
    routed.flashSource.reserve info routed.flashSource.feeBps
  tip : routed.expected.bidTipUsd ≤ max 0
    (min (d.klend.f64.mul d.config.risk.maxTipPctOfBonus routed.expected.bonusUsd)
      d.config.risk.maxTipPerTxUsd)
  net : routed.expected.netUsd = d.klend.f64.sub (d.klend.f64.sub (d.klend.f64.sub
    (d.klend.f64.sub routed.expected.bonusUsd routed.expected.estSlippageUsd)
      routed.expected.flashFeeUsd) routed.expected.estCuCostUsd) routed.expected.bidTipUsd
  hurdle : max d.config.risk.minProfitUsd (850 / 100) ≤ routed.expected.netUsd

variable {d}

/-- The gates of the loop together give a sound route. -/
theorem Passes.soundRoute {router : MultiSourceRouter} {breakerState : BreakerState}
    {routed : RoutedCandidate ℚ} (h : d.Passes router breakerState routed) :
    d.SoundRoute router routed := by
  obtain ⟨hpos, source, hsource, hnet, hrouted⟩ := (sizeAndRoute_eq_some_iff _ _ _ _ _ _).mp h.sized
  obtain ⟨hbreach, -, -, hhurdle⟩ :=
    (LiteSvmSimulator.simulate_passes_iff LiteSvmSimulator.new routed).mp h.simulated
  have hrepay : routed.repayAmount = sizePosition routed.candidate flashDepth := by rw [hrouted]
  have hflash : routed.flashSource = source := by rw [hrouted]
  have hexpected : routed.expected =
      estimateProfit d.klend.f64 routed.repayAmount routed.flashSource.feeBps d.config.risk := by
    rw [hrouted]
  refine ⟨hbreach, ?_, ?_, ?_, ?_, ?_, max_le hnet hhurdle⟩
  · rw [hrepay]
    exact hpos
  · rw [hrepay]
    exact le_refl _
  · rw [hrepay, hflash]
    exact MultiSourceRouter.canFund_of_route hsource
  · rw [hexpected]
    exact staticTipBid_le _ _ _
  · rw [hexpected]
    rfl

theorem mode_of_halt (h : d.cli.halt = true) : d.mode = .observe := by
  simp [mode, effectiveMode, h]

theorem submissions_eq_nil_of_observe (h : d.mode = .observe) (router : MultiSourceRouter)
    (items : List FeedItem) : d.submissions router items = [] := by
  rw [List.eq_nil_iff_forall_not_mem]
  intro submission hmem
  obtain ⟨before, item, later, routed, -, hfires, -⟩ := (d.mem_submissions_iff _ _ _).mp hmem
  have hlive := hfires.passes.live
  rw [h] at hlive
  cases hlive

/-- **Submission safety.**  In every run, from every router, every submitted
bundle carries a sound route, and an observing daemon submits nothing. -/
theorem submissions_sound (d : Daemon) (router : MultiSourceRouter) (items : List FeedItem) :
    (∀ submission ∈ d.submissions router items,
      d.SoundRoute router submission.bundle.sim.routed) ∧
    (d.mode = .observe → d.submissions router items = []) ∧
    (d.cli.halt = true → d.submissions router items = []) := by
  refine ⟨?_, ?_, ?_⟩
  · intro submission hmem
    obtain ⟨before, item, later, routed, -, hfires, rfl⟩ := (d.mem_submissions_iff _ _ _).mp hmem
    have hsound := hfires.passes.soundRoute
    rw [after_router] at hsound
    exact hsound
  · intro hmode
    exact submissions_eq_nil_of_observe hmode router items
  · intro hhalt
    exact submissions_eq_nil_of_observe (mode_of_halt hhalt) router items

/-! ## Size of the transaction -/

theorem bundle_versionedTx_length_le (d : Daemon) (simResult : SimResult ℚ) :
    (d.bundle simResult).versionedTx.length ≤ maxTxBytes := by
  unfold bundle
  simp only
  split
  · next tx htx =>
    obtain ⟨bytes, hbytes, hle⟩ := toCoreBundleBytes_of_assemble htx
    rw [hbytes]
    exact hle
  · simp [maxTxBytes]

/-- Every transaction handed to the submitter fits the 1232-byte ceiling. -/
theorem submissions_fit (router : MultiSourceRouter) (items : List FeedItem) :
    ∀ submission ∈ d.submissions router items,
      submission.bundle.versionedTx.length ≤ maxTxBytes := by
  intro submission hmem
  obtain ⟨before, item, later, routed, -, -, rfl⟩ := (d.mem_submissions_iff _ _ _).mp hmem
  exact bundle_versionedTx_length_le d _

end Daemon

end Gyrfalcon
