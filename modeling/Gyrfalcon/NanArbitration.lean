import Gyrfalcon.Arbitration
import Gyrfalcon.Lib.WithNan

/-!
# Arbitration with a NaN among the amounts

`arbitrate` again, over rationals with a NaN.  Its guards are all rejecting
comparisons (`net <= min`, `tip > cap`, `committed + tip > cap`), so an amount
that no comparison holds of passes each of them, and once committed it disables
the slot budget.  The sort of step 1 is handed an inconsistent order then and
may leave the candidates in any order, so the loop is studied in every order.
-/

namespace Gyrfalcon

open WithNan

/-- A USD amount that may be NaN. -/
abbrev Usd := WithNan ℚ

section

variable (risk : RiskConfig Usd) (treasuryConfig : TreasuryConfig Usd) (treasuryBalanceSol : Usd)
variable (tipFor : RoutedCandidate Usd → Usd)

/-- The admission loop over candidates in a given order. -/
def arbitrateInOrder (ranked : List (RoutedCandidate Usd)) : List (ArbitratedCandidate Usd) :=
  Machine.outputs (arbitrateOne risk treasuryConfig treasuryBalanceSol tipFor)
    ⟨[], SlotBudget.new⟩ ranked

theorem arbitrate_eq_inOrder (candidates : List (RoutedCandidate Usd)) :
    arbitrate candidates risk treasuryConfig treasuryBalanceSol tipFor =
      arbitrateInOrder risk treasuryConfig treasuryBalanceSol tipFor
        (candidates.insertionSort RanksBefore) := rfl

/-- The steps of the loop. -/
def arbitrationSteps (ranked : List (RoutedCandidate Usd)) :
    List (Machine.Step (SlotState Usd) (RoutedCandidate Usd) (ArbitratedCandidate Usd)) :=
  Machine.steps (arbitrateOne risk treasuryConfig treasuryBalanceSol tipFor)
    ⟨[], SlotBudget.new⟩ ranked

/-- What fires has a net profit above the hurdle and a tip that is a number, and
the tips that are numbers stay within the slot budget. -/
structure FailsClosed (results : List (ArbitratedCandidate Usd)) : Prop where
  profitable : ∀ c ∈ fired results, risk.minProfitUsd < c.1.expected.netUsd
  tips : ∀ c ∈ fired results, c.2 ≠ nan
  perSlot : number (numbers ((fired results).map Prod.snd)).sum ≤ risk.maxTipPerSlotUsd

/-- One of the amounts that decide about the candidate is NaN. -/
def Suspect (routed : RoutedCandidate Usd) : Prop :=
  routed.expected.netUsd = nan ∨ tipFor routed = nan ∨ risk.minProfitUsd = nan ∨
    risk.maxTipPerSlotUsd = nan

/-- A guard of the loop rejects the candidate in the state `st`. -/
def TurnedAway (st : SlotState Usd) (routed : RoutedCandidate Usd) : Prop :=
  routed.expected.netUsd ≤ risk.minProfitUsd ∨
    routed.flashSource.reserve ∈ st.lockedReserves ∨
    treasuryBalanceSol < treasuryConfig.minBalanceSol ∨
    risk.maxTipPerTxUsd < tipFor routed ∨
    risk.maxTipPerSlotUsd < st.budget.committedUsd + tipFor routed

/-! ## One candidate -/

variable {risk treasuryConfig treasuryBalanceSol tipFor}

/-- A candidate fires exactly when no guard rejects it. -/
theorem arbitrateOne_of_not_turnedAway {st : SlotState Usd} {routed : RoutedCandidate Usd}
    (h : ¬TurnedAway risk treasuryConfig treasuryBalanceSol tipFor st routed) :
    arbitrateOne risk treasuryConfig treasuryBalanceSol tipFor st routed =
      (⟨st.lockedReserves ++ [routed.flashSource.reserve], st.budget.commit (tipFor routed)⟩,
        ⟨routed, .fire (tipFor routed)⟩) := by
  simp only [TurnedAway, not_or] at h
  obtain ⟨hnet, hreserve, hbalance, hcap, hslot⟩ := h
  obtain ⟨hnet', -⟩ | ⟨-, hreserve', -⟩ | ⟨-, -, decision, hdecision, hcheck, -⟩ | ⟨-, -, -, e⟩ :=
    arbitrateOne_cases risk treasuryConfig treasuryBalanceSol tipFor st routed
  · exact absurd hnet' hnet
  · exact absurd hreserve' hreserve
  · rw [← hcheck] at hdecision
    exact absurd ((SlotBudget.check_eq_approved_iff _ _ _ _ _).mpr ⟨hbalance, hcap, hslot⟩)
      hdecision
  · exact e

theorem arbitrateOne_of_turnedAway {st : SlotState Usd} {routed : RoutedCandidate Usd}
    (h : TurnedAway risk treasuryConfig treasuryBalanceSol tipFor st routed) :
    (arbitrateOne risk treasuryConfig treasuryBalanceSol tipFor st routed).1 = st ∧
      fired [(arbitrateOne risk treasuryConfig treasuryBalanceSol tipFor st routed).2] = [] := by
  obtain ⟨-, e⟩ | ⟨-, -, e⟩ | ⟨-, -, decision, -, -, e⟩ | ⟨hnet, hreserve, hcheck, -⟩ :=
    arbitrateOne_cases risk treasuryConfig treasuryBalanceSol tipFor st routed
  · rw [e]
    exact ⟨rfl, rfl⟩
  · rw [e]
    exact ⟨rfl, rfl⟩
  · rw [e]
    exact ⟨rfl, rfl⟩
  · obtain ⟨hbalance, hcap, hslot⟩ := (SlotBudget.check_eq_approved_iff _ _ _ _ _).mp hcheck
    rcases h with h | h | h | h | h
    · exact absurd h hnet
    · exact absurd h hreserve
    · exact absurd h hbalance
    · exact absurd h hcap
    · exact absurd h hslot

/-! ## A run without suspects -/

/-- The budget holds the sum of what has fired, and what has fired is fine. -/
structure NanInv (risk : RiskConfig Usd) (os : List (ArbitratedCandidate Usd))
    (st : SlotState Usd) : Prop where
  committed : st.budget.committedUsd = number (numbers ((fired os).map Prod.snd)).sum
  profitable : ∀ c ∈ fired os, risk.minProfitUsd < c.1.expected.netUsd
  tips : ∀ c ∈ fired os, c.2 ≠ nan
  perSlot : fired os ≠ [] →
    number (numbers ((fired os).map Prod.snd)).sum ≤ risk.maxTipPerSlotUsd

/-- An output that does not fire leaves the invariant as it was. -/
theorem NanInv.skip {os : List (ArbitratedCandidate Usd)} {st : SlotState Usd}
    (h : NanInv risk os st) {a : ArbitratedCandidate Usd} (ha : fired [a] = []) :
    NanInv risk (os ++ [a]) st := by
  have hsame : fired (os ++ [a]) = fired os := by rw [fired_append, ha, List.append_nil]
  exact ⟨by rw [hsame]; exact h.committed, by rw [hsame]; exact h.profitable,
    by rw [hsame]; exact h.tips, by rw [hsame]; exact h.perSlot⟩

/-- A candidate that fires with a profit and a tip that are numbers. -/
theorem NanInv.fire {os : List (ArbitratedCandidate Usd)} {st : SlotState Usd}
    (h : NanInv risk os st) {routed : RoutedCandidate Usd} {tip : ℚ} (lockedReserves : List Pubkey)
    (hnet : risk.minProfitUsd < routed.expected.netUsd)
    (hslot : st.budget.committedUsd + number tip ≤ risk.maxTipPerSlotUsd) :
    NanInv risk (os ++ [⟨routed, .fire (number tip)⟩])
      ⟨lockedReserves, st.budget.commit (number tip)⟩ := by
  have hfired : fired (os ++ [⟨routed, .fire (number tip)⟩]) = fired os ++ [(routed, number tip)] :=
    fired_append _ _
  have hsum : number (numbers ((fired os ++ [(routed, number tip)]).map Prod.snd)).sum =
      st.budget.committedUsd + number tip := by
    rw [h.committed, number_add_number, List.map_append, numbers_append, List.sum_append,
      List.map_singleton, numbers_singleton, List.sum_singleton]
  refine ⟨?_, ?_, ?_, fun _ => ?_⟩
  · rw [hfired, hsum]
    rfl
  · intro c hc
    rw [hfired, List.mem_append, List.mem_singleton] at hc
    rcases hc with hc | rfl
    · exact h.profitable c hc
    · exact hnet
  · intro c hc
    rw [hfired, List.mem_append, List.mem_singleton] at hc
    rcases hc with hc | rfl
    · exact h.tips c hc
    · exact fun h => (nomatch h)
  · rw [hfired, hsum]
    exact hslot

theorem nanInv_arbitrateOne (os : List (ArbitratedCandidate Usd)) (st : SlotState Usd)
    (routed : RoutedCandidate Usd)
    (hgood : Suspect risk tipFor routed →
      TurnedAway risk treasuryConfig treasuryBalanceSol tipFor st routed)
    (h : NanInv risk os st) :
    NanInv risk (os ++ [(arbitrateOne risk treasuryConfig treasuryBalanceSol tipFor st routed).2])
      (arbitrateOne risk treasuryConfig treasuryBalanceSol tipFor st routed).1 := by
  by_cases haway : TurnedAway risk treasuryConfig treasuryBalanceSol tipFor st routed
  · obtain ⟨hstate, hfired⟩ := arbitrateOne_of_turnedAway haway
    rw [hstate]
    exact h.skip hfired
  · have hsuspect := mt hgood haway
    simp only [Suspect, not_or] at hsuspect
    obtain ⟨hnet, htip, hmin, hcap⟩ := hsuspect
    obtain ⟨tip, htip⟩ := exists_number_of_ne_nan htip
    have hfire := arbitrateOne_of_not_turnedAway haway
    rw [htip] at hfire
    simp only [TurnedAway, not_or, htip] at haway
    rw [hfire]
    refine h.fire _ (lt_of_not_le hmin hnet haway.1) (le_of_not_lt ?_ hcap haway.2.2.2.2)
    rw [h.committed]
    exact fun h => (nomatch h)

/-- What is turned away at every step leaves nothing fired. -/
theorem fired_eq_nil_of_turnedAway {ranked : List (RoutedCandidate Usd)}
    (h : ∀ step ∈ arbitrationSteps risk treasuryConfig treasuryBalanceSol tipFor ranked,
      TurnedAway risk treasuryConfig treasuryBalanceSol tipFor step.pre step.input) :
    fired (arbitrateInOrder risk treasuryConfig treasuryBalanceSol tipFor ranked) = [] := by
  refine @Machine.history_invariant_of_steps _ _ _ _ _ (fun os _ => fired os = []) _ ?_ rfl ranked h
  intro os st routed haway hos
  rw [fired_append, hos, (arbitrateOne_of_turnedAway haway).2, List.nil_append]

/-- A step that is not turned away has fired its candidate. -/
theorem mem_fired_of_not_turnedAway {ranked : List (RoutedCandidate Usd)}
    {step : Machine.Step (SlotState Usd) (RoutedCandidate Usd) (ArbitratedCandidate Usd)}
    (hstep : step ∈ arbitrationSteps risk treasuryConfig treasuryBalanceSol tipFor ranked)
    (haway : ¬TurnedAway risk treasuryConfig treasuryBalanceSol tipFor step.pre step.input) :
    (step.input, tipFor step.input) ∈
      fired (arbitrateInOrder risk treasuryConfig treasuryBalanceSol tipFor ranked) := by
  rw [mem_fired_iff]
  obtain ⟨_, _, _, _, hout⟩ := (Machine.mem_steps_iff _ _ _ _).mp hstep
  rw [arbitrateOne_of_not_turnedAway haway] at hout
  have hout : step.output = ⟨step.input, .fire (tipFor step.input)⟩ := (congrArg Prod.snd hout).symm
  rw [← hout]
  exact List.mem_map_of_mem hstep

end

/-- **When arbitration fails closed on NaN.**  In whatever order the candidates
are ranked: exactly when every candidate with a NaN net or tip, and every
candidate at all under a NaN hurdle or slot budget, is rejected by a guard in
the state in which its turn comes; and the slot budget is not negative, unless
something fires. -/
theorem failsClosed_iff (ranked : List (RoutedCandidate Usd)) (risk : RiskConfig Usd)
    (treasuryConfig : TreasuryConfig Usd) (treasuryBalanceSol : Usd)
    (tipFor : RoutedCandidate Usd → Usd) :
    FailsClosed risk
        (arbitrateInOrder risk treasuryConfig treasuryBalanceSol tipFor ranked) ↔
      (∀ step ∈ arbitrationSteps risk treasuryConfig treasuryBalanceSol tipFor ranked,
        Suspect risk tipFor step.input →
          TurnedAway risk treasuryConfig treasuryBalanceSol tipFor step.pre step.input) ∧
      (0 ≤ risk.maxTipPerSlotUsd ∨
        ∃ step ∈ arbitrationSteps risk treasuryConfig treasuryBalanceSol tipFor ranked,
          ¬TurnedAway risk treasuryConfig treasuryBalanceSol tipFor step.pre step.input) := by
  constructor
  · intro h
    constructor
    · intro step hstep hsuspect
      by_contra haway
      have hfired := mem_fired_of_not_turnedAway hstep haway
      obtain ⟨hmin, hnet⟩ := ne_nan_of_lt (h.profitable _ hfired)
      rcases hsuspect with hnan | hnan | hnan | hnan
      · exact hnet hnan
      · exact h.tips _ hfired hnan
      · exact hmin hnan
      · exact (ne_nan_of_le h.perSlot).2 hnan
    · by_contra hnone
      obtain ⟨hcap, hall⟩ := not_or.mp hnone
      have hnil := fired_eq_nil_of_turnedAway fun step hstep =>
        not_not.mp fun haway => hall ⟨step, hstep, haway⟩
      have hslot := h.perSlot
      rw [hnil] at hslot
      exact hcap hslot
  · rintro ⟨hgood, hcap⟩
    have hinv : NanInv risk _ _ := Machine.history_invariant_of_steps
      (fun os st routed hgood h => nanInv_arbitrateOne os st routed hgood h)
      ⟨rfl, by simp [fired], by simp [fired], by simp [fired]⟩ ranked hgood
    refine ⟨hinv.profitable, hinv.tips, ?_⟩
    rcases hcap with hcap | ⟨step, hstep, haway⟩
    · by_cases hnil : fired (arbitrateInOrder risk treasuryConfig treasuryBalanceSol tipFor
          ranked) = []
      · rw [hnil]
        exact hcap
      · exact hinv.perSlot hnil
    · exact hinv.perSlot (List.ne_nil_of_mem (mem_fired_of_not_turnedAway hstep haway))

/-- A candidate without a net profit or a tip fires, and the next one with a tip
of 1000 USD follows it past a slot budget of 600 USD. -/
theorem nan_fires_and_poisons_budget :
    let routed (reserve : UInt8) (net : Usd) : RoutedCandidate Usd :=
      ⟨⟨.kamino, Bytes32.fill reserve, Bytes32.fill 7, Bytes32.fill 8, number (9 / 10), 100, 1⟩,
        100, ⟨.kamino, Bytes32.fill reserve, 0⟩, ⟨net, number 0, number 0, number 0, number 0, net⟩⟩
    let risk : RiskConfig Usd :=
      ⟨number 5, number 0, 5, number (8 / 10), number 1500, number 600, number (4 / 10),
        number 1000, 3⟩
    let tipFor (c : RoutedCandidate Usd) : Usd :=
      if c.expected.netUsd = nan then nan else number 1000
    let results := arbitrate [routed 1 nan, routed 2 (number 2000)] risk ⟨"", number 1, ""⟩
      (number 2) tipFor
    results.map ArbitratedCandidate.outcome = [.fire nan, .fire (number 1000)] ∧
      ¬FailsClosed risk results := by
  intro routed risk tipFor results
  refine ⟨by decide +kernel, fun h => ?_⟩
  have hslot : ¬number (numbers ((fired results).map Prod.snd)).sum ≤ risk.maxTipPerSlotUsd := by
    decide +kernel
  exact hslot h.perSlot

end Gyrfalcon
