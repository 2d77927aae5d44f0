import Gyrfalcon.Sizing

/-!
# The bonus that is booked (`strategy/src/sizing.rs`)

The estimate values a repay at 20 USD per million base units, takes 5% of it as
the bonus and books no less than 12 USD.  All of it is `f64`: 12 million base
units come to a little more than 12 USD, and from there on the floor does not
show.
-/

namespace Gyrfalcon

open Rounding (F64)

/-- `repay_scale * bonus_rate * 20.0`, the bonus before its floor. -/
def earnedBonusUsd (f64 : F64) (repayAmount : Nat) : ℚ :=
  f64.mul (f64.mul (f64.div (f64.round repayAmount) 1000000) (f64.round (5 / 100))) 20

theorem bonusUsd_eq (f64 : F64) (repayAmount feeBps : Nat) (risk : RiskConfig ℚ) :
    (estimateProfit f64 repayAmount feeBps risk).bonusUsd =
      max (earnedBonusUsd f64 repayAmount) 12 := rfl

/-- The product is 5% of 20 USD per million units, but for its five roundings. -/
theorem earnedBonusUsd_near (f64 : F64) {repayAmount : Nat} (hpos : 0 < repayAmount) :
    |earnedBonusUsd f64 repayAmount - (repayAmount : ℚ) / 1000000 * 20 * (5 / 100)| ≤
      (repayAmount : ℚ) / 1000000 * 20 * (5 / 100) / 2 ^ 50 := by
  have hone : (1 : ℚ) ≤ repayAmount := by exact_mod_cast hpos
  have hamount : F64.Within 1 (f64.round repayAmount) (repayAmount : ℚ) :=
    (F64.Within.refl _).round (by decide) (by linarith)
  have hscale :
      F64.Within 2 (f64.div (f64.round repayAmount) 1000000) (repayAmount / 1000000 : ℚ) :=
    (hamount.div_const (by norm_num)).round (by decide) (by linarith)
  have hrate : F64.Within 1 (f64.round (5 / 100)) (5 / 100 : ℚ) :=
    (F64.Within.refl _).round (by decide) (by norm_num)
  have hbonus : F64.Within 4 (f64.mul (f64.div (f64.round repayAmount) 1000000)
      (f64.round (5 / 100))) (repayAmount / 1000000 * (5 / 100) : ℚ) :=
    (hscale.mul hrate (by linarith) (by norm_num)).round (by decide) (by linarith)
  have hearned : F64.Within 5 (earnedBonusUsd f64 repayAmount)
      (repayAmount / 1000000 * (5 / 100) * 20 : ℚ) :=
    (hbonus.mul (F64.Within.refl 20) (by linarith) (by norm_num)).round (by decide) (by linarith)
  have hsame : (repayAmount : ℚ) / 1000000 * 20 * (5 / 100) =
      (repayAmount : ℚ) / 1000000 * (5 / 100) * 20 := by ring
  rw [hsame]
  exact hearned.abs_sub_le (by decide) (by linarith)

/-! ## Double precision -/

theorem earnedBonusUsd_mono {repayAmount repayAmount' : Nat} (hle : repayAmount ≤ repayAmount') :
    earnedBonusUsd .ieee repayAmount ≤ earnedBonusUsd .ieee repayAmount' := by
  have hmono := Rounding.binary64.round_mono
  have hscale : F64.ieee.div (F64.ieee.round repayAmount) 1000000 ≤
      F64.ieee.div (F64.ieee.round repayAmount') 1000000 :=
    hmono (div_le_div_of_nonneg_right (hmono (by exact_mod_cast hle)) (by norm_num))
  have hrate : 0 ≤ F64.ieee.round (5 / 100) := by decide +kernel
  exact hmono (mul_le_mul_of_nonneg_right (hmono (mul_le_mul_of_nonneg_right hscale hrate))
    (by norm_num))

/-- The floor of 12 USD is reached at 12 million units, as it is without rounding. -/
theorem twelve_le_earnedBonusUsd_iff (repayAmount : Nat) :
    12 ≤ earnedBonusUsd .ieee repayAmount ↔ 12000000 ≤ repayAmount := by
  have hreached : 12 ≤ earnedBonusUsd .ieee 12000000 := by decide +kernel
  have hmissed : earnedBonusUsd .ieee 11999999 < 12 := by decide +kernel
  constructor
  · intro h
    by_contra hlt
    exact absurd h (not_le.mpr ((earnedBonusUsd_mono (by omega)).trans_lt hmissed))
  · exact fun h => hreached.trans (earnedBonusUsd_mono h)

theorem bonusUsd_le_iff (repayAmount feeBps : Nat) (risk : RiskConfig ℚ) :
    (estimateProfit .ieee repayAmount feeBps risk).bonusUsd ≤ earnedBonusUsd .ieee repayAmount ↔
      12000000 ≤ repayAmount := by
  rw [bonusUsd_eq, max_le_iff, twelve_le_earnedBonusUsd_iff]
  exact and_iff_right (le_refl _)

/-- Every cost of the estimate is non-negative. -/
theorem netUsd_le_bonusUsd (repayAmount feeBps : Nat) (risk : RiskConfig ℚ) :
    (estimateProfit .ieee repayAmount feeBps risk).netUsd ≤
      (estimateProfit .ieee repayAmount feeBps risk).bonusUsd := by
  obtain ⟨expected, hexpected⟩ : ∃ expected,
      expected = estimateProfit .ieee repayAmount feeBps risk := ⟨_, rfl⟩
  have hbonus : F64.ieee.round expected.bonusUsd = expected.bonusUsd := by
    rw [hexpected, bonusUsd_eq]
    rcases max_choice (earnedBonusUsd .ieee repayAmount) 12 with h | h
    · rw [h]
      exact Rounding.binary64.round_round _
    · rw [h]
      decide +kernel
  have hslippage : 0 ≤ expected.estSlippageUsd := by
    rw [hexpected]
    exact le_max_of_le_right (by decide +kernel)
  have hfee : 0 ≤ expected.flashFeeUsd := by
    rw [hexpected]
    exact le_max_of_le_right (by decide +kernel)
  have hcost : 0 ≤ expected.estCuCostUsd := by
    rw [hexpected]
    exact div_nonneg (by norm_num) (by norm_num)
  have htip : 0 ≤ expected.bidTipUsd := by
    rw [hexpected]
    exact staticTipBid_nonneg _ _ _
  have hnet : expected.netUsd = F64.ieee.sub (F64.ieee.sub (F64.ieee.sub (F64.ieee.sub
      expected.bonusUsd expected.estSlippageUsd) expected.flashFeeUsd) expected.estCuCostUsd)
      expected.bidTipUsd := by
    rw [hexpected]
    rfl
  rw [← hexpected, hnet]
  refine F64.ieee_sub_le hbonus (F64.ieee_sub_le hbonus (F64.ieee_sub_le hbonus
    (F64.ieee_sub_le hbonus (le_refl _) hslippage) hfee) hcost) htip

/-- **When there is no phantom bonus.**  What the estimate computes as 5% of the repay is
that, to within a part of 2^50.  The booked bonus is within it, and with it the net
estimate, exactly from 12 million base units on: below that the floor of 12 USD is
booked instead. -/
theorem noPhantomBonus_iff (candidate : BreachCandidate ℚ) (router : FlashSourceRouter)
    (risk : RiskConfig ℚ) (flashDepth : Nat) (routed : RoutedCandidate ℚ)
    (h : sizeAndRoute .ieee candidate router risk flashDepth = some routed) :
    let earned := earnedBonusUsd .ieee routed.repayAmount
    let exactly := (routed.repayAmount : ℚ) / 1000000 * 20 * (5 / 100)
    |earned - exactly| ≤ exactly / 2 ^ 50 ∧
      ((routed.expected.bonusUsd ≤ earned ∧ routed.expected.netUsd ≤ earned) ↔
        12000000 ≤ min candidate.closeFactorMaxRepay flashDepth) := by
  obtain ⟨hpos, source, -, -, rfl⟩ := (sizeAndRoute_eq_some_iff _ _ _ _ _ _).mp h
  intro earned exactly
  refine ⟨earnedBonusUsd_near .ieee hpos, ?_⟩
  rw [← sizePosition, ← bonusUsd_le_iff _ source.feeBps risk]
  constructor
  · exact fun hboth => hboth.1
  · exact fun hbonus => ⟨hbonus, (netUsd_le_bonusUsd _ _ _).trans hbonus⟩

/-- 12 million units: a bonus of 12 USD and a bit on 240 USD. -/
theorem noPhantomBonus_iff_funded :
    let candidate : BreachCandidate ℚ :=
      ⟨.kamino, Bytes32.fill 5, Bytes32.fill 1, Bytes32.fill 2, 9 / 10, 12000000, 10⟩
    let router : FlashSourceRouter := fun _ _ => some ⟨.kamino, Bytes32.fill 4, 0⟩
    let risk : RiskConfig ℚ :=
      ⟨5, 0, 5, F64.ieee.round (8 / 10), 150, 600, F64.ieee.round (4 / 10), 1000, 3⟩
    ∃ routed, sizeAndRoute .ieee candidate router risk 50000000000 = some routed ∧
      routed.expected.bonusUsd = 12 + 1 / 2 ^ 49 ∧
      routed.expected.bonusUsd ≤ earnedBonusUsd .ieee routed.repayAmount ∧
      routed.expected.netUsd ≤ earnedBonusUsd .ieee routed.repayAmount := by
  intro candidate router risk
  have hrouted : sizeAndRoute .ieee candidate router risk 50000000000 =
      some ⟨candidate, 12000000, ⟨.kamino, Bytes32.fill 4, 0⟩,
        estimateProfit .ieee 12000000 0 risk⟩ := by
    decide +kernel
  exact ⟨_, hrouted, by decide +kernel,
    (noPhantomBonus_iff _ _ _ _ _ hrouted).2.mpr (by decide)⟩

/-- One base unit, two thousandths of a cent, is routed for 6.59 USD of profit. -/
theorem phantom_bonus_on_dust :
    let candidate : BreachCandidate ℚ :=
      ⟨.kamino, Bytes32.fill 5, Bytes32.fill 1, Bytes32.fill 2, 9 / 10, 1, 10⟩
    let router : FlashSourceRouter := fun _ _ => some ⟨.kamino, Bytes32.fill 4, 0⟩
    let risk : RiskConfig ℚ :=
      ⟨5, 0, 5, F64.ieee.round (8 / 10), 150, 600, F64.ieee.round (4 / 10), 1000, 3⟩
    ∃ routed, sizeAndRoute .ieee candidate router risk 50000000000 = some routed ∧
      routed.expected.bonusUsd = 12 ∧ |routed.expected.netUsd - 659 / 100| ≤ 1 / 10 ^ 14 ∧
      routed.repayAmount = 1 ∧ earnedBonusUsd .ieee 1 ≤ 2 / 1000000 ∧
      ¬routed.expected.bonusUsd ≤ earnedBonusUsd .ieee routed.repayAmount ∧
      ¬routed.expected.netUsd ≤ earnedBonusUsd .ieee routed.repayAmount := by
  intro candidate router risk
  exact ⟨⟨candidate, 1, ⟨.kamino, Bytes32.fill 4, 0⟩, estimateProfit .ieee 1 0 risk⟩,
    by decide +kernel, by decide +kernel, by decide +kernel, by decide +kernel, by decide +kernel,
    by decide +kernel, by decide +kernel⟩

end Gyrfalcon
