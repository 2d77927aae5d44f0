import Gyrfalcon.FlashSelection
import Gyrfalcon.Sizing
import Mathlib.Analysis.Convex.Jensen

/-!
# The repay amounts `size_and_route` leaves out

`size_and_route` tries one amount, the smaller of the close factor and the
flash depth it is told.  Here the estimate is read as a function of the amount:
in exact arithmetic it is flat and falling up to the 12 USD floor of the bonus,
convex past it.  So where any amount works at all, one of a few does, and these
decide whether giving up was right.
-/

namespace Gyrfalcon

/-! ## The tip -/

theorem concaveOn_const_mul (c : ℚ) {s : Set ℚ} (hs : Convex ℚ s) :
    ConcaveOn ℚ s fun x => c * x :=
  (LinearMap.mulLeft ℚ c).concaveOn hs

/-- The tip grows with the bonus until it meets its cap. -/
theorem concaveOn_staticTipBid (risk : RiskConfig ℚ) :
    ConcaveOn ℚ (Set.Ici 0) fun bonusUsd => staticTipBid .exact bonusUsd risk := by
  by_cases htip : 0 ≤ risk.maxTipPctOfBonus ∧ 0 ≤ risk.maxTipPerTxUsd
  · refine ((concaveOn_const_mul risk.maxTipPctOfBonus (convex_Ici 0)).inf
      (concaveOn_const risk.maxTipPerTxUsd (convex_Ici 0))).congr fun bonusUsd hbonus => ?_
    rw [staticTipBid_eq]
    exact (max_eq_left (le_min (mul_nonneg htip.1 hbonus) htip.2)).symm
  · refine (concaveOn_const 0 (convex_Ici 0)).congr fun bonusUsd hbonus => ?_
    rw [staticTipBid_eq]
    refine (max_eq_right ?_).symm
    rcases not_and_or.mp htip with hpct | hcap
    · exact (min_le_left _ _).trans (mul_nonpos_of_nonpos_of_nonneg (not_le.mp hpct).le hbonus)
    · exact (min_le_right _ _).trans (not_le.mp hcap).le

/-! ## The estimate as a function of the amount -/

/-- The net estimate at `scale` million units. -/
def netAt (feeBps : Nat) (risk : RiskConfig ℚ) (scale : ℚ) : ℚ :=
  max (scale * (5 / 100) * 20) 12 - max (scale * (3 / 1000) * 20) (10 / 100) -
    max (scale * 20 * (feeBps / 10000)) (1 / 100) - 50 / 100 -
      staticTipBid .exact (max (scale * (5 / 100) * 20) 12) risk

theorem netUsd_eq (repayAmount feeBps : Nat) (risk : RiskConfig ℚ) :
    (estimateProfit .exact repayAmount feeBps risk).netUsd =
      netAt feeBps risk ((repayAmount : ℚ) / 1000000) := rfl

/-- Up to the floor of the bonus, a smaller amount at a lower fee is worth more. -/
theorem netAt_le_of_le {feeBps feeBps' : Nat} (risk : RiskConfig ℚ) {scale scale' : ℚ}
    (hfee : feeBps ≤ feeBps') (hpos : 0 ≤ scale) (hle : scale ≤ scale') (hfloor : scale' ≤ 12) :
    netAt feeBps' risk scale' ≤ netAt feeBps risk scale := by
  have hbonus : max (scale * (5 / 100) * 20) 12 = 12 := max_eq_right (by linarith)
  have hbonus' : max (scale' * (5 / 100) * 20) 12 = 12 := max_eq_right (by linarith)
  have hslippage : max (scale * (3 / 1000) * 20) (10 / 100) ≤
      max (scale' * (3 / 1000) * 20) (10 / 100) := max_le_max_right _ (by linarith)
  have hrate : (feeBps : ℚ) / 10000 ≤ feeBps' / 10000 := by gcongr
  have hflash : max (scale * 20 * (feeBps / 10000)) (1 / 100) ≤
      max (scale' * 20 * (feeBps' / 10000)) (1 / 100) := by
    refine max_le_max_right _ (mul_le_mul (by linarith) hrate (by positivity) (by linarith))
  unfold netAt
  rw [hbonus, hbonus']
  linarith

/-- Past the floor the fee is proportional to the amount, or its minimum. -/
theorem concaveOn_flashFee (feeBps : Nat) :
    ConcaveOn ℚ (Set.Ici 12) fun scale : ℚ => max (scale * 20 * (feeBps / 10000)) (1 / 100) := by
  cases feeBps with
  | zero =>
    refine (concaveOn_const (1 / 100 : ℚ) (convex_Ici 12)).congr fun scale _ => ?_
    norm_num
  | succ n =>
    refine (concaveOn_const_mul (20 * (((n + 1 : Nat) : ℚ) / 10000)) (convex_Ici 12)).congr
      fun scale hscale => ?_
    have hscale : (12 : ℚ) ≤ scale := hscale
    have hfee : (1 : ℚ) / 10000 ≤ ((n + 1 : Nat) : ℚ) / 10000 := by
      gcongr
      exact_mod_cast Nat.succ_pos n
    have hmin : (1 : ℚ) / 100 ≤ scale * 20 * (((n + 1 : Nat) : ℚ) / 10000) := by
      calc (1 : ℚ) / 100 ≤ 12 * 20 * (1 / 10000) := by norm_num
        _ ≤ scale * 20 * (((n + 1 : Nat) : ℚ) / 10000) := by gcongr
    rw [max_eq_left hmin]
    ring

/-- Past the floor the estimate is convex: its best value is at an end. -/
theorem convexOn_netAt (feeBps : Nat) (risk : RiskConfig ℚ) :
    ConvexOn ℚ (Set.Ici 12) (netAt feeBps risk) := by
  have hlinear : ConvexOn ℚ (Set.Ici 12) fun scale : ℚ => 94 / 100 * scale :=
    (LinearMap.mulLeft ℚ (94 / 100)).convexOn (convex_Ici 12)
  have htip := (concaveOn_staticTipBid risk).subset
    (Set.Ici_subset_Ici.mpr (by norm_num : (0 : ℚ) ≤ 12)) (convex_Ici 12)
  refine ((hlinear.sub (concaveOn_flashFee feeBps)).sub htip).add_const (-(50 / 100)) |>.congr
    fun scale hscale => ?_
  have hscale : (12 : ℚ) ≤ scale := hscale
  have hbonus : max (scale * (5 / 100) * 20) 12 = scale := by
    rw [max_eq_left (by linarith)]
    ring
  have hslippage : max (scale * (3 / 1000) * 20) (10 / 100) = 6 / 100 * scale := by
    rw [max_eq_left (by linarith)]
    ring
  simp only [netAt, hbonus, hslippage, Pi.add_apply, Pi.sub_apply]
  ring

theorem netAt_le_end (feeBps : Nat) (risk : RiskConfig ℚ) {scale hi : ℚ} (hlo : 12 ≤ scale)
    (hhi : scale ≤ hi) : netAt feeBps risk scale ≤ netAt feeBps risk 12 ∨
      netAt feeBps risk scale ≤ netAt feeBps risk hi :=
  le_max_iff.mp ((convexOn_netAt feeBps risk).le_max_of_mem_Icc Set.self_mem_Ici
    (hlo.trans hhi) ⟨hlo, hhi⟩)

/-! ## Routes of smaller and larger amounts -/

namespace MultiSourceRouter

variable {self : MultiSourceRouter} {mint : Pubkey} {amount amount' : Nat}

theorem CanFund.of_le {key : Pubkey} {info : ReserveInfo} {feeBps : Nat}
    (h : self.CanFund mint amount key info feeBps) (hle : amount' ≤ info.availableLiquidity) :
    self.CanFund mint amount' key info feeBps :=
  ⟨h.tracked, h.mint, hle, h.verified, h.enabled⟩

/-- What can fund the amount bounds the fee of its route. -/
theorem CanFund.exists_route {key : Pubkey} {info : ReserveInfo} {feeBps : Nat}
    (h : self.CanFund mint amount key info feeBps) :
    ∃ source, self.route mint amount = some source ∧ source.feeBps ≤ feeBps := by
  have hsome := (route_isSome_iff self mint amount).mpr ⟨key, info, feeBps, h⟩
  obtain ⟨source, hroute⟩ := Option.isSome_iff_exists.mp hsome
  obtain ⟨info', -, hbest⟩ := route_least hroute
  refine ⟨source, hroute, not_lt.mp fun hlt => hbest key info feeBps h (Or.inl hlt)⟩

/-- A smaller amount routes at no higher a fee. -/
theorem route_of_le {source : FlashSource} (h : self.route mint amount = some source)
    (hle : amount' ≤ amount) :
    ∃ source', self.route mint amount' = some source' ∧ source'.feeBps ≤ source.feeBps := by
  obtain ⟨info, hfund⟩ := canFund_of_route h
  exact (hfund.of_le (hle.trans hfund.liquidity)).exists_route

/-- A larger amount that the routed reserve still holds routes at the same fee. -/
theorem route_up_to_depth {source : FlashSource} {info : ReserveInfo}
    (h : self.route mint amount = some source)
    (hfund : self.CanFund mint amount source.reserve info source.feeBps) (hle : amount ≤ amount')
    (hdepth : amount' ≤ info.availableLiquidity) :
    ∃ source', self.route mint amount' = some source' ∧ source'.feeBps = source.feeBps := by
  obtain ⟨source', hroute', hfee'⟩ := (hfund.of_le hdepth).exists_route
  obtain ⟨back, hback, hfee⟩ := route_of_le hroute' hle
  obtain rfl := Option.some.inj (hback.symm.trans h)
  exact ⟨source', hroute', Nat.le_antisymm hfee' hfee⟩

end MultiSourceRouter

/-! ## Amounts that work -/

/-- `amount` can be routed, and its estimate reaches the hurdle. -/
def Works (router : FlashSourceRouter) (mint : Pubkey) (risk : RiskConfig ℚ) (amount : Nat) :
    Prop :=
  ∃ source, router mint amount = some source ∧
    risk.minProfitUsd ≤ (estimateProfit .exact amount source.feeBps risk).netUsd

/-- The amounts worth a look besides the one that is sized: one base unit, and
all that a tracked reserve holds. -/
def IsProbe (router : MultiSourceRouter) (amount : Nat) : Prop :=
  amount = 1 ∨ ∃ key info, router.reserves.lookup key = some info ∧
    info.availableLiquidity = amount

/-- `None` is the answer exactly when the one sized amount fails. -/
theorem sizeAndRoute_eq_none_iff (candidate : BreachCandidate ℚ) (router : FlashSourceRouter)
    (risk : RiskConfig ℚ) (flashDepth : Nat) :
    sizeAndRoute .exact candidate router risk flashDepth = none ↔
      ¬(0 < sizePosition candidate flashDepth ∧
        Works router candidate.debtMint risk (sizePosition candidate flashDepth)) := by
  rw [← not_iff_not, not_not, ← ne_eq, Option.ne_none_iff_exists']
  simp only [sizeAndRoute_eq_some_iff]
  constructor
  · rintro ⟨routed, hpos, source, hroute, hnet, rfl⟩
    exact ⟨hpos, source, hroute, hnet⟩
  · rintro ⟨hpos, source, hroute, hnet⟩
    exact ⟨⟨candidate, sizePosition candidate flashDepth, source,
      estimateProfit .exact (sizePosition candidate flashDepth) source.feeBps risk⟩, hpos, source,
      hroute,
      hnet, rfl⟩

section

variable {router : MultiSourceRouter} {mint : Pubkey} {risk : RiskConfig ℚ}

/-- Up to 12 million units, what works works as one base unit. -/
theorem works_one_of_le {amount : Nat} {source : FlashSource} (hpos : 0 < amount)
    (hroute : router.route mint amount = some source)
    (hnet : risk.minProfitUsd ≤ netAt source.feeBps risk (min ((amount : ℚ) / 1000000) 12)) :
    Works router.route mint risk 1 := by
  obtain ⟨source', hroute', hfee⟩ := MultiSourceRouter.route_of_le hroute hpos
  have hamount : (1 : ℚ) ≤ amount := by exact_mod_cast hpos
  have hscale : ((1 : Nat) : ℚ) / 1000000 ≤ min ((amount : ℚ) / 1000000) 12 := by
    rw [Nat.cast_one]
    refine le_min (by linarith) (by norm_num)
  refine ⟨source', hroute', hnet.trans ?_⟩
  rw [netUsd_eq]
  exact netAt_le_of_le risk hfee (by norm_num) hscale (min_le_right _ _)

/-- Past 12 million units, what works works as one base unit, or as far up as
both the routed reserve and the limit allow. -/
theorem works_one_or_up {amount limit : Nat} {source : FlashSource} {info : ReserveInfo}
    (hpos : 0 < amount) (hle : amount ≤ limit) (hscale : 12 ≤ (amount : ℚ) / 1000000)
    (hroute : router.route mint amount = some source)
    (hfund : router.CanFund mint amount source.reserve info source.feeBps)
    (hnet : risk.minProfitUsd ≤ netAt source.feeBps risk ((amount : ℚ) / 1000000)) :
    Works router.route mint risk 1 ∨
      Works router.route mint risk (min info.availableLiquidity limit) := by
  have hup : amount ≤ min info.availableLiquidity limit := Nat.le_min.mpr ⟨hfund.liquidity, hle⟩
  obtain ⟨source', hroute', hfee⟩ :=
    MultiSourceRouter.route_up_to_depth hroute hfund hup (Nat.min_le_left _ _)
  have hscale' : (amount : ℚ) / 1000000 ≤
      ((min info.availableLiquidity limit : Nat) : ℚ) / 1000000 := by
    gcongr
  rcases netAt_le_end source.feeBps risk hscale hscale' with hend | hend
  · refine Or.inl (works_one_of_le hpos hroute ?_)
    rw [min_eq_right hscale]
    exact hnet.trans hend
  · refine Or.inr ⟨source', hroute', ?_⟩
    rw [netUsd_eq, hfee]
    exact hnet.trans hend

/-- **Where any amount works, a probe or the largest amount works.** -/
theorem exists_probe_of_works {amount limit : Nat} (hpos : 0 < amount) (hle : amount ≤ limit)
    (hworks : Works router.route mint risk amount) :
    Works router.route mint risk limit ∨
      ∃ probe, IsProbe router probe ∧ 0 < probe ∧ probe ≤ limit ∧
        Works router.route mint risk probe := by
  obtain ⟨source, hroute, hnet⟩ := hworks
  rw [netUsd_eq] at hnet
  have hunit : Works router.route mint risk 1 → ∃ probe, IsProbe router probe ∧ 0 < probe ∧
      probe ≤ limit ∧ Works router.route mint risk probe := fun h =>
    ⟨1, Or.inl rfl, Nat.one_pos, Nat.le_trans hpos hle, h⟩
  rcases le_total ((amount : ℚ) / 1000000) 12 with hscale | hscale
  · refine Or.inr (hunit (works_one_of_le hpos hroute ?_))
    rwa [min_eq_left hscale]
  · obtain ⟨info, hfund⟩ := MultiSourceRouter.canFund_of_route hroute
    rcases works_one_or_up hpos hle hscale hroute hfund hnet with hone | hup
    · exact Or.inr (hunit hone)
    · rcases le_total info.availableLiquidity limit with hdepth | hdepth
      · rw [min_eq_left hdepth] at hup
        have hpos' : 0 < info.availableLiquidity := Nat.lt_of_lt_of_le hpos hfund.liquidity
        exact Or.inr ⟨info.availableLiquidity, Or.inr ⟨_, info, hfund.tracked, rfl⟩, hpos', hdepth,
          hup⟩
      · rw [min_eq_right hdepth] at hup
        exact Or.inl hup

end

/-- Giving up means that no amount within the two limits works. -/
def GivesUpRightly (candidate : BreachCandidate ℚ) (router : MultiSourceRouter)
    (risk : RiskConfig ℚ) (flashDepth : Nat) : Prop :=
  sizeAndRoute .exact candidate router.route risk flashDepth = none →
    ∀ amount, 0 < amount → amount ≤ min candidate.closeFactorMaxRepay flashDepth →
      ¬Works router.route candidate.debtMint risk amount

/-- **When giving up is right.**  Exactly when the sized amount works, or no
probe within the limits does. -/
theorem givesUpRightly_iff (candidate : BreachCandidate ℚ) (router : MultiSourceRouter)
    (risk : RiskConfig ℚ) (flashDepth : Nat) :
    GivesUpRightly candidate router risk flashDepth ↔
      Works router.route candidate.debtMint risk (min candidate.closeFactorMaxRepay flashDepth) ∨
        ∀ amount, IsProbe router amount → 0 < amount →
          amount ≤ min candidate.closeFactorMaxRepay flashDepth →
            ¬Works router.route candidate.debtMint risk amount := by
  unfold GivesUpRightly
  rw [sizeAndRoute_eq_none_iff, sizePosition]
  constructor
  · intro h
    by_cases hworks : Works router.route candidate.debtMint risk
        (min candidate.closeFactorMaxRepay flashDepth)
    · exact Or.inl hworks
    · exact Or.inr fun amount _ hpos hle => h (fun hsized => hworks hsized.2) amount hpos hle
  · rintro (hworks | hprobes) hnone amount hpos hle hamount
    · exact hnone ⟨Nat.lt_of_lt_of_le hpos hle, hworks⟩
    · rcases exists_probe_of_works hpos hle hamount with
        hlimit | ⟨probe, hprobe, hpos', hle', hworks⟩
      · exact hnone ⟨Nat.lt_of_lt_of_le hpos hle, hlimit⟩
      · exact hprobes probe hprobe hpos' hle' hworks

/-- A close factor of 40 billion units under the daemon's depth of 50 billion, and
one reserve that holds 30 billion: nothing is routed, although the 30 billion
would route free of charge and clear the hurdle. -/
theorem gives_up_on_deep_position :
    let candidate : BreachCandidate ℚ :=
      ⟨.kamino, Bytes32.fill 5, Bytes32.fill 1, Bytes32.fill 2, 9 / 10, 40000000000, 10⟩
    let router := MultiSourceRouter.new.addReserve (Bytes32.fill 4) .kamino (Bytes32.fill 2)
      30000000000 (some 0)
    let risk : RiskConfig ℚ := ⟨5, 0, 5, 8 / 10, 150, 600, 4 / 10, 1000, 3⟩
    sizeAndRoute .exact candidate router.route risk 50000000000 = none ∧
      Works router.route (Bytes32.fill 2) risk 30000000000 ∧
      ¬GivesUpRightly candidate router risk 50000000000 := by
  intro candidate router risk
  have hnone : sizeAndRoute .exact candidate router.route risk 50000000000 = none := by
    decide +kernel
  have hworks : Works router.route (Bytes32.fill 2) risk 30000000000 :=
    ⟨⟨.kamino, Bytes32.fill 4, 0⟩, by decide +kernel, by decide +kernel⟩
  have hle : 30000000000 ≤ min candidate.closeFactorMaxRepay 50000000000 := by decide
  refine ⟨hnone, hworks, fun h => ?_⟩
  exact h hnone 30000000000 (by decide) hle hworks

end Gyrfalcon
