import Gyrfalcon.Arbitration
import Gyrfalcon.Sizing

/-!
# The profit hurdle, twice

`size_and_route` lets a candidate through when its net profit is at least
`min_profit_usd`; `arbitrate` discards one whose net profit is at most
`min_profit_usd`.  The two comparisons disagree at equality, and nowhere else.
-/

namespace Gyrfalcon

open Rounding (F64)

variable (f64 : F64) (candidate : BreachCandidate ℚ) (router : FlashSourceRouter)
variable (risk : RiskConfig ℚ) (flashDepth : Nat)
variable (treasuryConfig : TreasuryConfig ℚ) (treasuryBalanceSol : ℚ)
  (tipFor : RoutedCandidate ℚ → ℚ)

/-- What sizing lets through, no arbitration window discards. -/
def OneHurdle : Prop :=
  ∀ routed, sizeAndRoute f64 candidate router risk flashDepth = some routed →
    ∀ candidates, routed ∈ candidates →
      ∀ a ∈ arbitrate candidates risk treasuryConfig treasuryBalanceSol tipFor,
        a.routed = routed → a.outcome ≠ .discarded

variable {risk treasuryConfig treasuryBalanceSol tipFor}

/-- A candidate alone in its window. -/
theorem exists_mem_arbitrate_singleton (routed : RoutedCandidate ℚ) :
    ∃ a ∈ arbitrate [routed] risk treasuryConfig treasuryBalanceSol tipFor,
      a.routed = routed := by
  have hmem : routed ∈ (arbitrate [routed] risk treasuryConfig treasuryBalanceSol tipFor).map
      ArbitratedCandidate.routed := by
    rw [arbitrate_routed, List.mem_insertionSort]
    exact List.mem_singleton_self routed
  exact List.mem_map.mp hmem

/-- **When there is one hurdle.**  Sizing and arbitration agree on a candidate,
if and only if its profit estimate is not exactly `min_profit_usd`. -/
theorem oneHurdle_iff (f64 : F64) (candidate : BreachCandidate ℚ) (router : FlashSourceRouter)
    (risk : RiskConfig ℚ) (flashDepth : Nat) (treasuryConfig : TreasuryConfig ℚ)
    (treasuryBalanceSol : ℚ) (tipFor : RoutedCandidate ℚ → ℚ) :
    OneHurdle f64 candidate router risk flashDepth treasuryConfig treasuryBalanceSol tipFor ↔
      ∀ source, 0 < sizePosition candidate flashDepth →
        router candidate.debtMint (sizePosition candidate flashDepth) = some source →
        (estimateProfit f64 (sizePosition candidate flashDepth) source.feeBps risk).netUsd ≠
          risk.minProfitUsd := by
  constructor
  · intro h source hpos hsource hnet
    obtain ⟨routed, hrouted⟩ : ∃ routed : RoutedCandidate ℚ,
        routed = ⟨candidate, sizePosition candidate flashDepth, source,
          estimateProfit f64 (sizePosition candidate flashDepth) source.feeBps risk⟩ := ⟨_, rfl⟩
    have hexpected : routed.expected.netUsd = risk.minProfitUsd := by
      rw [hrouted]
      exact hnet
    have hsized := (sizeAndRoute_eq_some_iff f64 candidate router risk flashDepth routed).mpr
      ⟨hpos, source, hsource, hexpected.ge, hrouted⟩
    obtain ⟨a, ha, hsame⟩ := exists_mem_arbitrate_singleton routed
    refine h routed hsized [routed] (List.mem_singleton_self routed) a ha hsame ?_
    rw [outcome_eq_discarded_iff ha, hsame]
    exact hexpected.le
  · rintro h routed hsized candidates - a ha rfl hdiscarded
    obtain ⟨hpos, source, hsource, hnet, hrouted⟩ :=
      (sizeAndRoute_eq_some_iff _ _ _ _ _ _).mp hsized
    rw [outcome_eq_discarded_iff ha] at hdiscarded
    refine h source hpos hsource ?_
    have heq := le_antisymm hdiscarded hnet
    rw [hrouted] at heq
    exact heq

/-- A repay of 20 tokens nets 16.29 USD.  With that as the hurdle, sizing lets
it through and arbitration discards it. -/
theorem sized_then_discarded :
    let candidate : BreachCandidate ℚ :=
      ⟨.kamino, Bytes32.fill 5, Bytes32.fill 1, Bytes32.fill 2, 9 / 10, 20000000, 10⟩
    let router : FlashSourceRouter := fun _ _ => some ⟨.kamino, Bytes32.fill 4, 0⟩
    let risk : RiskConfig ℚ := ⟨1629 / 100, 0, 5, 8 / 10, 200, 600, 1 / 10, 1000, 3⟩
    ∃ routed, sizeAndRoute .exact candidate router risk 50000000000 = some routed ∧
      routed.expected.netUsd = 1629 / 100 ∧
      (arbitrate [routed] risk ⟨"", 1, ""⟩ 2 fun _ => 2).map ArbitratedCandidate.outcome =
        [.discarded] := by
  intro candidate router risk
  exact ⟨⟨candidate, 20000000, ⟨.kamino, Bytes32.fill 4, 0⟩, estimateProfit .exact 20000000 0 risk⟩,
    by decide +kernel, by decide +kernel, by decide +kernel⟩

end Gyrfalcon
