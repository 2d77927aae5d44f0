import Gyrfalcon.Core
import Gyrfalcon.Lib.Rounding
import Mathlib.Algebra.Order.Field.Rat
import Mathlib.Tactic.NormNum

/-!
# Sizing, tip and simulation

From a breach candidate to a simulated route: `strategy/src/tip.rs`,
`size_and_route` of `strategy/src/sizing.rs` and the in-process simulator of
`sim/src/simulator.rs`.  The arithmetic the estimate is computed in is a
parameter.
-/

namespace Gyrfalcon

open Rounding (F64)

/-! ## Tip -/

def staticTipFloorUsd : ℚ := 0

/-- `f64::clamp`. -/
def clamp (x lo hi : ℚ) : ℚ := if x < lo then lo else if hi < x then hi else x

/-- The competitive bid, clamped between zero and the tip ceiling. -/
def staticTipBid (f64 : F64) (bonusUsd : ℚ) (risk : RiskConfig ℚ) : ℚ :=
  let ceiling := min (f64.mul risk.maxTipPctOfBonus bonusUsd) risk.maxTipPerTxUsd
  let floor := max risk.minTipUsd staticTipFloorUsd
  let competitive := f64.mul risk.maxTipPctOfBonus bonusUsd
  clamp (max competitive floor) 0 (max ceiling 0)

theorem clamp_eq {x lo hi : ℚ} (h : lo ≤ hi) : clamp x lo hi = max lo (min x hi) := by
  unfold clamp
  split
  · next hx => rw [min_eq_left (hx.le.trans h), max_eq_left hx.le]
  · next hx =>
    have hx := not_lt.mp hx
    split
    · next hhi => rw [min_eq_right hhi.le, max_eq_right h]
    · next hhi => rw [min_eq_left (not_lt.mp hhi), max_eq_right hx]

theorem clamp_le {x lo hi : ℚ} (h : lo ≤ hi) : clamp x lo hi ≤ hi := by
  rw [clamp_eq h]
  exact max_le h (min_le_right _ _)

theorem le_clamp {x lo hi : ℚ} (h : lo ≤ hi) : lo ≤ clamp x lo hi := by
  rw [clamp_eq h]
  exact le_max_left _ _

/-- A clamp grows with its argument and with both bounds. -/
theorem clamp_mono {x x' lo lo' hi hi' : ℚ} (hx : x ≤ x') (hlo : lo ≤ lo') (hhi : hi ≤ hi')
    (h : lo ≤ hi) (h' : lo' ≤ hi') : clamp x lo hi ≤ clamp x' lo' hi' := by
  rw [clamp_eq h, clamp_eq h']
  exact max_le_max hlo (min_le_min hx hhi)

theorem staticTipBid_le (f64 : F64) (bonusUsd : ℚ) (risk : RiskConfig ℚ) :
    staticTipBid f64 bonusUsd risk ≤
      max 0 (min (f64.mul risk.maxTipPctOfBonus bonusUsd) risk.maxTipPerTxUsd) := by
  rw [max_comm]
  exact clamp_le (le_max_right _ _)

/-- The floor of the bid never shows: the tip is its ceiling. -/
theorem staticTipBid_eq (f64 : F64) (bonusUsd : ℚ) (risk : RiskConfig ℚ) :
    staticTipBid f64 bonusUsd risk =
      max (min (f64.mul risk.maxTipPctOfBonus bonusUsd) risk.maxTipPerTxUsd) 0 := by
  have hcompetitive : min (f64.mul risk.maxTipPctOfBonus bonusUsd) risk.maxTipPerTxUsd ≤
      max (f64.mul risk.maxTipPctOfBonus bonusUsd) (max risk.minTipUsd staticTipFloorUsd) :=
    (min_le_left _ _).trans (le_max_left _ _)
  have hfloor : (0 : ℚ) ≤
      max (f64.mul risk.maxTipPctOfBonus bonusUsd) (max risk.minTipUsd staticTipFloorUsd) :=
    (le_max_right _ _).trans (le_max_right _ _)
  have hbid := max_le hcompetitive hfloor
  unfold staticTipBid
  simp only
  rw [clamp_eq (le_max_right _ _), min_eq_right hbid, max_eq_right (le_max_right _ _)]

theorem staticTipBid_nonneg (f64 : F64) (bonusUsd : ℚ) (risk : RiskConfig ℚ) :
    0 ≤ staticTipBid f64 bonusUsd risk := by
  rw [staticTipBid_eq]
  exact le_max_right _ _

/-! ## Size and route -/

def sizePosition (candidate : BreachCandidate ℚ) (flashSourceAvailable : Nat) : Nat :=
  min candidate.closeFactorMaxRepay flashSourceAvailable

/-- The pre-simulation profit estimate of `size_and_route`. -/
def estimateProfit (f64 : F64) (repayAmount feeBps : Nat) (risk : RiskConfig ℚ) :
    ProfitEstimate ℚ :=
  let bonusRate := f64.round (5 / 100)
  let repayScale := f64.div (f64.round repayAmount) 1000000
  let bonusUsd := max (f64.mul (f64.mul repayScale bonusRate) 20) 12
  let estSlippageUsd :=
    max (f64.mul (f64.mul repayScale (f64.round (3 / 1000))) 20) (f64.round (10 / 100))
  let flashFeeUsd :=
    max (f64.mul (f64.mul repayScale 20) (f64.div (f64.round feeBps) 10000)) (f64.round (1 / 100))
  let estCuCostUsd := 50 / 100
  let bidTipUsd := staticTipBid f64 bonusUsd risk
  { bonusUsd, estSlippageUsd, flashFeeUsd, estCuCostUsd, bidTipUsd
    netUsd := f64.sub (f64.sub (f64.sub (f64.sub bonusUsd estSlippageUsd) flashFeeUsd)
      estCuCostUsd) bidTipUsd }

def sizeAndRoute (f64 : F64) (candidate : BreachCandidate ℚ) (router : FlashSourceRouter)
    (risk : RiskConfig ℚ) (flashDepth : Nat) : Option (RoutedCandidate ℚ) :=
  let repayAmount := sizePosition candidate flashDepth
  if repayAmount = 0 then none
  else
    match router candidate.debtMint repayAmount with
    | none => none
    | some flashSource =>
      let expected := estimateProfit f64 repayAmount flashSource.feeBps risk
      if expected.netUsd < risk.minProfitUsd then none
      else some { candidate, repayAmount, flashSource, expected }

/-- What a routed candidate is, and when there is one. -/
theorem sizeAndRoute_eq_some_iff (f64 : F64) (candidate : BreachCandidate ℚ)
    (router : FlashSourceRouter) (risk : RiskConfig ℚ) (flashDepth : Nat)
    (routed : RoutedCandidate ℚ) :
    sizeAndRoute f64 candidate router risk flashDepth = some routed ↔
      0 < sizePosition candidate flashDepth ∧
      ∃ source, router candidate.debtMint (sizePosition candidate flashDepth) = some source ∧
        risk.minProfitUsd ≤ routed.expected.netUsd ∧
        routed = ⟨candidate, sizePosition candidate flashDepth, source,
          estimateProfit f64 (sizePosition candidate flashDepth) source.feeBps risk⟩ := by
  unfold sizeAndRoute
  by_cases hzero : sizePosition candidate flashDepth = 0
  · simp [hzero]
  · simp only [hzero, ↓reduceIte, Nat.pos_of_ne_zero hzero, true_and]
    cases hroute : router candidate.debtMint (sizePosition candidate flashDepth) with
    | none => simp
    | some source =>
      simp only [Option.some.injEq, exists_eq_left']
      constructor
      · intro h
        split at h
        · cases h
        · next hnet =>
          have h := Option.some.inj h
          subst h
          exact ⟨not_lt.mp hnet, rfl⟩
      · rintro ⟨hnet, rfl⟩
        exact if_neg (not_lt.mpr hnet)

/-! ## Simulation -/

structure LiteSvmSimulator where
  minProfitUsd : ℚ
  deriving DecidableEq, Repr

/-- The default hurdle rate, 8.50. -/
def LiteSvmSimulator.new : LiteSvmSimulator := ⟨850 / 100⟩

/-- The `LiteSvmSimulator` does not execute: it checks the breach, the repay
size and the hurdle, and reports fixed compute and size figures. -/
def LiteSvmSimulator.simulate (self : LiteSvmSimulator) (routed : RoutedCandidate ℚ) :
    SimResult ℚ :=
  let isBreaching := routed.candidate.healthFactor < 1
  let validRepay := 0 < routed.repayAmount ∧
    routed.repayAmount ≤ routed.candidate.closeFactorMaxRepay
  let feasible : Bool := decide (isBreaching ∧ validRepay)
  { routed
    feasible
    cuMeasured := if feasible then 245000 else 0
    txBytes := if feasible then 512 else 0
    profitable := feasible && decide (self.minProfitUsd ≤ routed.expected.netUsd) }

/-- The two flags the daemon looks at. -/
theorem LiteSvmSimulator.simulate_passes_iff (self : LiteSvmSimulator)
    (routed : RoutedCandidate ℚ) :
    ((self.simulate routed).feasible && (self.simulate routed).profitable) = true ↔
      routed.candidate.healthFactor < 1 ∧ 0 < routed.repayAmount ∧
        routed.repayAmount ≤ routed.candidate.closeFactorMaxRepay ∧
        self.minProfitUsd ≤ routed.expected.netUsd := by
  simp only [simulate, Bool.and_eq_true, decide_eq_true_eq]
  constructor
  · rintro ⟨⟨hbreach, hpos, hle⟩, -, hnet⟩
    exact ⟨hbreach, hpos, hle, hnet⟩
  · rintro ⟨hbreach, hpos, hle, hnet⟩
    exact ⟨⟨hbreach, hpos, hle⟩, ⟨hbreach, hpos, hle⟩, hnet⟩

end Gyrfalcon
