import Gyrfalcon.Core
import Gyrfalcon.Lib.Machine
import Gyrfalcon.Lib.StableSort
import Mathlib.Algebra.BigOperators.Group.List.Basic
import Mathlib.Algebra.Order.BigOperators.Group.List
import Mathlib.Algebra.Order.Ring.Rat
import Mathlib.Tactic.Linarith
import Mathlib.Tactic.NormNum

/-!
# Multi-candidate arbitration (`strategy/src/arbitration.rs`, `strategy/src/treasury_check.rs`)

One evaluation window: the routed candidates are ranked by net profit, and each
is admitted, discarded or deferred against the reserves already locked and the
tips already committed in this slot.

The abstract side is `Admissible`: what a set of fired candidates has to
satisfy together.  `arbitrate` fires an admissible set, and a maximal one: no
deferred candidate can be added to it.
-/

namespace Gyrfalcon

/-! ## Treasury check -/

inductive TreasuryDecision where
  | approved
  | exceedsPerTxCap
  | exceedsPerSlotBudget
  | belowMinimumBalance
  deriving DecidableEq, Repr

/-- Committed tip spend within one slot. -/
structure SlotBudget (F : Type) where
  committedUsd : F
  deriving DecidableEq, Repr

section Generic

variable {F : Type} [LE F] [LT F] [Add F] [Zero F] [DecidableLE F] [DecidableLT F]

def SlotBudget.new : SlotBudget F := ⟨0⟩

/-- Balance floor, then per-tx cap, then per-slot budget; does not commit. -/
def SlotBudget.check (self : SlotBudget F) (tipUsd currentBalanceSol : F) (risk : RiskConfig F)
    (treasury : TreasuryConfig F) : TreasuryDecision :=
  if currentBalanceSol < treasury.minBalanceSol then .belowMinimumBalance
  else if risk.maxTipPerTxUsd < tipUsd then .exceedsPerTxCap
  else if risk.maxTipPerSlotUsd < self.committedUsd + tipUsd then .exceedsPerSlotBudget
  else .approved

def SlotBudget.commit (self : SlotBudget F) (tipUsd : F) : SlotBudget F :=
  ⟨self.committedUsd + tipUsd⟩

/-! ## Arbitration -/

inductive ArbitrationOutcome (F : Type) where
  | fire (tipUsd : F)
  | deferredReserveConflict
  | deferredBudget (decision : TreasuryDecision)
  | discarded
  deriving DecidableEq, Repr

structure ArbitratedCandidate (F : Type) where
  routed : RoutedCandidate F
  outcome : ArbitrationOutcome F
  deriving DecidableEq, Repr

/-- The two accumulators of the admission loop. -/
structure SlotState (F : Type) where
  lockedReserves : List Pubkey
  budget : SlotBudget F
  deriving DecidableEq, Repr

/-- The comparator of step 1 does not put `b` before `a`: net profit descending,
with an incomparable pair counted as equal. -/
def RanksBefore (a b : RoutedCandidate F) : Prop := ¬ a.expected.netUsd < b.expected.netUsd

instance : DecidableRel (RanksBefore (F := F)) := fun a b =>
  inferInstanceAs (Decidable (¬ a.expected.netUsd < b.expected.netUsd))

/-- The body of the loop, for one candidate. -/
def arbitrateOne (risk : RiskConfig F) (treasuryConfig : TreasuryConfig F) (treasuryBalanceSol : F)
    (tipFor : RoutedCandidate F → F) (st : SlotState F) (routed : RoutedCandidate F) :
    SlotState F × ArbitratedCandidate F :=
  if routed.expected.netUsd ≤ risk.minProfitUsd then (st, ⟨routed, .discarded⟩)
  else if routed.flashSource.reserve ∈ st.lockedReserves then
    (st, ⟨routed, .deferredReserveConflict⟩)
  else
    let tipUsd := tipFor routed
    let decision := st.budget.check tipUsd treasuryBalanceSol risk treasuryConfig
    if decision ≠ .approved then (st, ⟨routed, .deferredBudget decision⟩)
    else
      (⟨st.lockedReserves ++ [routed.flashSource.reserve], st.budget.commit tipUsd⟩,
        ⟨routed, .fire tipUsd⟩)

/-- Stable sort by `RanksBefore`, then the admission loop. -/
def arbitrate (candidates : List (RoutedCandidate F)) (risk : RiskConfig F)
    (treasuryConfig : TreasuryConfig F) (treasuryBalanceSol : F)
    (tipFor : RoutedCandidate F → F) : List (ArbitratedCandidate F) :=
  Machine.outputs (arbitrateOne risk treasuryConfig treasuryBalanceSol tipFor) ⟨[], SlotBudget.new⟩
    (candidates.insertionSort RanksBefore)

/-- The fired candidates of a window with their committed tips, in order. -/
def fired (results : List (ArbitratedCandidate F)) : List (RoutedCandidate F × F) :=
  results.filterMap fun a =>
    match a.outcome with
    | .fire tipUsd => some (a.routed, tipUsd)
    | _ => none

end Generic

/-! ## One candidate -/

theorem fired_append {F : Type} (xs ys : List (ArbitratedCandidate F)) :
    fired (xs ++ ys) = fired xs ++ fired ys :=
  List.filterMap_append

theorem mem_fired_iff {F : Type} (results : List (ArbitratedCandidate F)) (c : RoutedCandidate F)
    (tip : F) : (c, tip) ∈ fired results ↔ (⟨c, .fire tip⟩ : ArbitratedCandidate F) ∈ results := by
  simp only [fired, List.mem_filterMap]
  constructor
  · rintro ⟨⟨routed, outcome⟩, ha, h⟩
    cases outcome <;> simp_all
  · intro h
    exact ⟨_, h, rfl⟩

section Step

theorem SlotBudget.check_eq_approved_iff {F : Type} [LT F] [Add F] [DecidableLT F]
    (budget : SlotBudget F) (tipUsd balance : F) (risk : RiskConfig F)
    (treasury : TreasuryConfig F) :
    budget.check tipUsd balance risk treasury = .approved ↔
      ¬ balance < treasury.minBalanceSol ∧ ¬ risk.maxTipPerTxUsd < tipUsd ∧
        ¬ risk.maxTipPerSlotUsd < budget.committedUsd + tipUsd := by
  unfold SlotBudget.check
  split_ifs <;> simp_all

variable {F : Type} [LE F] [LT F] [Add F] [DecidableLE F] [DecidableLT F]
variable (risk : RiskConfig F) (treasuryConfig : TreasuryConfig F) (treasuryBalanceSol : F)
variable (tipFor : RoutedCandidate F → F)

/-- Everything the loop body can do with a candidate. -/
theorem arbitrateOne_cases (st : SlotState F) (routed : RoutedCandidate F) :
    (routed.expected.netUsd ≤ risk.minProfitUsd ∧
      arbitrateOne risk treasuryConfig treasuryBalanceSol tipFor st routed =
        (st, ⟨routed, .discarded⟩)) ∨
    (¬ routed.expected.netUsd ≤ risk.minProfitUsd ∧
      routed.flashSource.reserve ∈ st.lockedReserves ∧
      arbitrateOne risk treasuryConfig treasuryBalanceSol tipFor st routed =
        (st, ⟨routed, .deferredReserveConflict⟩)) ∨
    (¬ routed.expected.netUsd ≤ risk.minProfitUsd ∧
      routed.flashSource.reserve ∉ st.lockedReserves ∧
      ∃ decision, decision ≠ .approved ∧
        st.budget.check (tipFor routed) treasuryBalanceSol risk treasuryConfig = decision ∧
        arbitrateOne risk treasuryConfig treasuryBalanceSol tipFor st routed =
          (st, ⟨routed, .deferredBudget decision⟩)) ∨
    (¬ routed.expected.netUsd ≤ risk.minProfitUsd ∧
      routed.flashSource.reserve ∉ st.lockedReserves ∧
      st.budget.check (tipFor routed) treasuryBalanceSol risk treasuryConfig = .approved ∧
      arbitrateOne risk treasuryConfig treasuryBalanceSol tipFor st routed =
        (⟨st.lockedReserves ++ [routed.flashSource.reserve], st.budget.commit (tipFor routed)⟩,
          ⟨routed, .fire (tipFor routed)⟩)) := by
  unfold arbitrateOne
  by_cases hnet : routed.expected.netUsd ≤ risk.minProfitUsd
  · exact Or.inl ⟨hnet, if_pos hnet⟩
  refine Or.inr ?_
  by_cases hres : routed.flashSource.reserve ∈ st.lockedReserves
  · exact Or.inl ⟨hnet, hres, by rw [if_neg hnet, if_pos hres]⟩
  refine Or.inr ?_
  by_cases hdec : st.budget.check (tipFor routed) treasuryBalanceSol risk treasuryConfig = .approved
  · exact Or.inr ⟨hnet, hres, hdec, by simp [hnet, hres, hdec]⟩
  · exact Or.inl ⟨hnet, hres, _, hdec, rfl, by simp [hnet, hres, hdec]⟩

@[simp] theorem arbitrateOne_routed (st : SlotState F) (routed : RoutedCandidate F) :
    (arbitrateOne risk treasuryConfig treasuryBalanceSol tipFor st routed).2.routed = routed := by
  obtain ⟨-, h⟩ | ⟨-, -, h⟩ | ⟨-, -, _, -, -, h⟩ | ⟨-, -, -, h⟩ :=
    arbitrateOne_cases risk treasuryConfig treasuryBalanceSol tipFor st routed <;> rw [h]

end Step

/-! ## A whole window, in exact arithmetic -/

section Window

variable (risk : RiskConfig ℚ) (treasuryConfig : TreasuryConfig ℚ) (treasuryBalanceSol : ℚ)
variable (tipFor : RoutedCandidate ℚ → ℚ)

/-- What the candidates fired in one slot must satisfy together. -/
structure Admissible (cs : List (RoutedCandidate ℚ)) : Prop where
  profitable : ∀ c ∈ cs, risk.minProfitUsd < c.expected.netUsd
  reserves : (cs.map fun c => c.flashSource.reserve).Nodup
  perTx : ∀ c ∈ cs, tipFor c ≤ risk.maxTipPerTxUsd
  perSlot : cs ≠ [] → (cs.map tipFor).sum ≤ risk.maxTipPerSlotUsd
  funded : cs ≠ [] → treasuryConfig.minBalanceSol ≤ treasuryBalanceSol

/-- The accumulators are the locks and the spend of what has fired, and what
has fired is admissible. -/
structure SlotInv (os : List (ArbitratedCandidate ℚ)) (st : SlotState ℚ) : Prop where
  locked : st.lockedReserves = (fired os).map fun c => c.1.flashSource.reserve
  committed : st.budget.committedUsd = ((fired os).map Prod.snd).sum
  tips : ∀ c ∈ fired os, c.2 = tipFor c.1
  admissible :
    Admissible risk treasuryConfig treasuryBalanceSol tipFor ((fired os).map Prod.fst)

variable {risk treasuryConfig treasuryBalanceSol tipFor}

theorem SlotInv.map_tips {os : List (ArbitratedCandidate ℚ)} {st : SlotState ℚ}
    (h : SlotInv risk treasuryConfig treasuryBalanceSol tipFor os st) :
    ((fired os).map Prod.fst).map tipFor = (fired os).map Prod.snd := by
  rw [List.map_map]
  exact List.map_congr_left fun c hc => (h.tips c hc).symm

/-- An output that does not fire leaves the invariant as it was. -/
theorem SlotInv.skip {os : List (ArbitratedCandidate ℚ)} {st : SlotState ℚ}
    (h : SlotInv risk treasuryConfig treasuryBalanceSol tipFor os st)
    {a : ArbitratedCandidate ℚ} (ha : fired [a] = []) :
    SlotInv risk treasuryConfig treasuryBalanceSol tipFor (os ++ [a]) st := by
  have hf : fired (os ++ [a]) = fired os := by rw [fired_append, ha, List.append_nil]
  exact ⟨by rw [hf]; exact h.locked, by rw [hf]; exact h.committed, by rw [hf]; exact h.tips,
    by rw [hf]; exact h.admissible⟩

/-- One more candidate that passes every check against what is there. -/
theorem Admissible.concat {cs : List (RoutedCandidate ℚ)} {c : RoutedCandidate ℚ}
    (h : Admissible risk treasuryConfig treasuryBalanceSol tipFor cs)
    (hnet : risk.minProfitUsd < c.expected.netUsd)
    (hreserve : c.flashSource.reserve ∉ cs.map fun c => c.flashSource.reserve)
    (htx : tipFor c ≤ risk.maxTipPerTxUsd)
    (hslot : (cs.map tipFor).sum + tipFor c ≤ risk.maxTipPerSlotUsd)
    (hbal : treasuryConfig.minBalanceSol ≤ treasuryBalanceSol) :
    Admissible risk treasuryConfig treasuryBalanceSol tipFor (cs ++ [c]) := by
  refine ⟨?_, ?_, ?_, fun _ => ?_, fun _ => hbal⟩
  · intro c' hc'
    rcases List.mem_append.mp hc' with hc' | hc'
    · exact h.profitable c' hc'
    · rw [List.mem_singleton.mp hc']
      exact hnet
  · rw [List.map_append]
    exact h.reserves.append (List.nodup_singleton _) (by simpa using hreserve)
  · intro c' hc'
    rcases List.mem_append.mp hc' with hc' | hc'
    · exact h.perTx c' hc'
    · rw [List.mem_singleton.mp hc']
      exact htx
  · rw [List.map_append, List.sum_append]
    simpa using hslot

theorem slotInv_arbitrateOne (os : List (ArbitratedCandidate ℚ)) (st : SlotState ℚ)
    (routed : RoutedCandidate ℚ)
    (h : SlotInv risk treasuryConfig treasuryBalanceSol tipFor os st) :
    SlotInv risk treasuryConfig treasuryBalanceSol tipFor
      (os ++ [(arbitrateOne risk treasuryConfig treasuryBalanceSol tipFor st routed).2])
      (arbitrateOne risk treasuryConfig treasuryBalanceSol tipFor st routed).1 := by
  obtain ⟨-, e⟩ | ⟨-, -, e⟩ | ⟨-, -, _, -, -, e⟩ | ⟨hnet, hres, hdec, e⟩ :=
    arbitrateOne_cases risk treasuryConfig treasuryBalanceSol tipFor st routed
  · rw [e]; exact h.skip rfl
  · rw [e]; exact h.skip rfl
  · rw [e]; exact h.skip rfl
  · rw [e]
    rw [SlotBudget.check_eq_approved_iff] at hdec
    obtain ⟨hbal, htx, hslot⟩ := hdec
    have hf : fired (os ++ [⟨routed, .fire (tipFor routed)⟩]) =
        fired os ++ [(routed, tipFor routed)] := fired_append _ _
    rw [h.locked] at hres
    have hsum : ((fired os).map Prod.snd).sum + tipFor routed ≤ risk.maxTipPerSlotUsd := by
      rw [← h.committed]; exact not_lt.mp hslot
    refine ⟨by simp [hf, h.locked], by simp [hf, SlotBudget.commit, h.committed], ?_, ?_⟩
    · intro c hc
      rw [hf, List.mem_append, List.mem_singleton] at hc
      rcases hc with hc | rfl
      · exact h.tips c hc
      · rfl
    · rw [hf, List.map_append]
      refine h.admissible.concat (not_le.mp hnet) ?_ (not_lt.mp htx) ?_ (not_lt.mp hbal)
      · rwa [List.map_map]
      · rw [h.map_tips]
        exact hsum

variable (risk treasuryConfig treasuryBalanceSol tipFor)

/-- The invariant holds after any part of a window. -/
theorem slotInv_outputs (cs : List (RoutedCandidate ℚ)) :
    SlotInv risk treasuryConfig treasuryBalanceSol tipFor
      (Machine.outputs (arbitrateOne risk treasuryConfig treasuryBalanceSol tipFor)
        ⟨[], SlotBudget.new⟩ cs)
      (Machine.final (arbitrateOne risk treasuryConfig treasuryBalanceSol tipFor)
        ⟨[], SlotBudget.new⟩ cs) := by
  refine Machine.history_invariant slotInv_arbitrateOne ⟨rfl, rfl, by simp [fired], ?_⟩ cs
  exact ⟨by simp [fired], by simp [fired], by simp [fired], by simp [fired], by simp [fired]⟩

theorem outputs_routed (st : SlotState ℚ) (cs : List (RoutedCandidate ℚ)) :
    (Machine.outputs (arbitrateOne risk treasuryConfig treasuryBalanceSol tipFor) st cs).map
      ArbitratedCandidate.routed = cs := by
  induction cs generalizing st with
  | nil => rfl
  | cons c cs ih => simp [ih]

theorem ranksBefore_iff (a b : RoutedCandidate ℚ) :
    RanksBefore a b ↔ b.expected.netUsd ≤ a.expected.netUsd := not_lt

instance : Std.Total (RanksBefore (F := ℚ)) :=
  ⟨fun a b => by simpa only [ranksBefore_iff] using le_total _ _⟩

instance : IsTrans (RoutedCandidate ℚ) RanksBefore :=
  ⟨fun a b c hab hbc => by rw [ranksBefore_iff] at *; exact hbc.trans hab⟩

theorem arbitrate_routed (candidates : List (RoutedCandidate ℚ)) :
    (arbitrate candidates risk treasuryConfig treasuryBalanceSol tipFor).map
      ArbitratedCandidate.routed = candidates.insertionSort RanksBefore :=
  outputs_routed _ _ _ _ _ _

/-- The result is in rank order. -/
theorem arbitrate_sorted (candidates : List (RoutedCandidate ℚ)) :
    (candidates.insertionSort RanksBefore).Pairwise
      (fun a b => b.expected.netUsd ≤ a.expected.netUsd) :=
  (List.pairwise_insertionSort RanksBefore candidates).imp fun h => (ranksBefore_iff _ _).mp h

/-- The candidates and tips that fire, and why they were allowed to. -/
theorem slotInv_arbitrate (candidates : List (RoutedCandidate ℚ)) :
    ∃ st, SlotInv risk treasuryConfig treasuryBalanceSol tipFor
      (arbitrate candidates risk treasuryConfig treasuryBalanceSol tipFor) st :=
  ⟨_, slotInv_outputs risk treasuryConfig treasuryBalanceSol tipFor _⟩

variable {risk treasuryConfig treasuryBalanceSol tipFor}

/-- One arbitrated candidate in its window: what was decided before it, and the
state it was decided in. -/
theorem arbitrate_split {candidates : List (RoutedCandidate ℚ)} {a : ArbitratedCandidate ℚ}
    (ha : a ∈ arbitrate candidates risk treasuryConfig treasuryBalanceSol tipFor) :
    ∃ before after st,
      arbitrate candidates risk treasuryConfig treasuryBalanceSol tipFor = before ++ a :: after ∧
      SlotInv risk treasuryConfig treasuryBalanceSol tipFor before st ∧
      (arbitrateOne risk treasuryConfig treasuryBalanceSol tipFor st a.routed).2 = a := by
  obtain ⟨step, hstep, rfl⟩ := List.mem_map.mp ha
  obtain ⟨xs, ys, hcs, hpre, hadm⟩ := (Machine.mem_steps_iff _ _ _ _).mp hstep
  have hout : (arbitrateOne risk treasuryConfig treasuryBalanceSol tipFor step.pre step.input).2 =
      step.output := by rw [hadm]
  have hr : step.output.routed = step.input := by rw [← hout, arbitrateOne_routed]
  have hinv := slotInv_outputs risk treasuryConfig treasuryBalanceSol tipFor xs
  rw [← hpre] at hinv
  refine ⟨_, Machine.outputs (arbitrateOne risk treasuryConfig treasuryBalanceSol tipFor)
    step.post ys, step.pre, ?_, hinv, by rw [hr]; exact hout⟩
  unfold arbitrate
  rw [hcs, Machine.outputs_append, Machine.outputs_cons, ← hpre, hadm]

/-- What is discarded is decided by its own profit alone. -/
theorem outcome_eq_discarded_iff {candidates : List (RoutedCandidate ℚ)}
    {a : ArbitratedCandidate ℚ}
    (ha : a ∈ arbitrate candidates risk treasuryConfig treasuryBalanceSol tipFor) :
    a.outcome = .discarded ↔ a.routed.expected.netUsd ≤ risk.minProfitUsd := by
  obtain ⟨_, _, st, -, -, hout⟩ := arbitrate_split ha
  obtain ⟨hnet, e⟩ | ⟨hnet, -, e⟩ | ⟨hnet, -, decision, -, -, e⟩ | ⟨hnet, -, -, e⟩ :=
    arbitrateOne_cases risk treasuryConfig treasuryBalanceSol tipFor st a.routed
  · have ho : a.outcome = .discarded := by rw [← hout, e]
    simp [ho, hnet]
  · have ho : a.outcome = .deferredReserveConflict := by rw [← hout, e]
    simp [ho, hnet]
  · have ho : a.outcome = .deferredBudget decision := by rw [← hout, e]
    simp [ho, hnet]
  · have ho : a.outcome = .fire (tipFor a.routed) := by rw [← hout, e]
    simp [ho, hnet]

/-- Whatever fired earlier in the window has at least the profit of `a`. -/
theorem le_net_of_fired_before {candidates : List (RoutedCandidate ℚ)}
    {a : ArbitratedCandidate ℚ} {before after : List (ArbitratedCandidate ℚ)}
    (h : arbitrate candidates risk treasuryConfig treasuryBalanceSol tipFor =
      before ++ a :: after) {c : RoutedCandidate ℚ} {tip : ℚ} (hc : (c, tip) ∈ fired before) :
    a.routed.expected.netUsd ≤ c.expected.netUsd := by
  have hsorted := arbitrate_sorted candidates
  rw [← arbitrate_routed risk treasuryConfig treasuryBalanceSol tipFor, h, List.map_append,
    List.pairwise_append] at hsorted
  exact hsorted.2.2 c (List.mem_map_of_mem ((mem_fired_iff before c tip).mp hc)) a.routed
    (by simp)

theorem routed_mem_of_mem_arbitrate {candidates : List (RoutedCandidate ℚ)}
    {a : ArbitratedCandidate ℚ}
    (ha : a ∈ arbitrate candidates risk treasuryConfig treasuryBalanceSol tipFor) :
    a.routed ∈ candidates := by
  have hmem : a.routed ∈ (arbitrate candidates risk treasuryConfig treasuryBalanceSol tipFor).map
      ArbitratedCandidate.routed := List.mem_map_of_mem ha
  rwa [arbitrate_routed, List.mem_insertionSort] at hmem

/-- Tips within the per-tx cap are never deferred for it. -/
theorem outcome_ne_exceedsPerTxCap {candidates : List (RoutedCandidate ℚ)}
    (htips : ∀ c ∈ candidates, tipFor c ≤ risk.maxTipPerTxUsd) {a : ArbitratedCandidate ℚ}
    (ha : a ∈ arbitrate candidates risk treasuryConfig treasuryBalanceSol tipFor) :
    a.outcome ≠ .deferredBudget .exceedsPerTxCap := by
  have hcap : ¬risk.maxTipPerTxUsd < tipFor a.routed :=
    not_lt.mpr (htips a.routed (routed_mem_of_mem_arbitrate ha))
  obtain ⟨_, _, st, -, -, hout⟩ := arbitrate_split ha
  intro houtcome
  obtain ⟨-, e⟩ | ⟨-, -, e⟩ | ⟨-, -, decision, -, hdec, e⟩ | ⟨-, -, -, e⟩ :=
    arbitrateOne_cases risk treasuryConfig treasuryBalanceSol tipFor st a.routed
  · rw [← hout, e] at houtcome
    cases houtcome
  · rw [← hout, e] at houtcome
    cases houtcome
  · rw [← hout, e] at houtcome
    cases houtcome
    unfold SlotBudget.check at hdec
    simp only [hcap, ↓reduceIte] at hdec
    split_ifs at hdec
  · rw [← hout, e] at houtcome
    cases houtcome

theorem tip_nonneg_of_fired {candidates : List (RoutedCandidate ℚ)}
    (htips : ∀ c ∈ candidates, 0 ≤ tipFor c) :
    ∀ c ∈ fired (arbitrate candidates risk treasuryConfig treasuryBalanceSol tipFor), 0 ≤ c.2 := by
  rintro ⟨c, tip⟩ hc
  obtain ⟨st, hinv⟩ := slotInv_arbitrate risk treasuryConfig treasuryBalanceSol tipFor candidates
  have htip : tip = tipFor c := hinv.tips _ hc
  rw [htip]
  exact htips c (routed_mem_of_mem_arbitrate ((mem_fired_iff _ c tip).mp hc))

/-! ## Safety -/

/-- **Arbitration safety.**  The result is the input ranked by net profit, ties
in input order, and what fires respects every constraint of the slot. -/
theorem arbitrate_safe (candidates : List (RoutedCandidate ℚ)) (risk : RiskConfig ℚ)
    (treasuryConfig : TreasuryConfig ℚ) (treasuryBalanceSol : ℚ)
    (tipFor : RoutedCandidate ℚ → ℚ) :
    let results := arbitrate candidates risk treasuryConfig treasuryBalanceSol tipFor
    let ranked := results.map ArbitratedCandidate.routed
    ranked.Perm candidates ∧
    ranked.Pairwise (fun a b => b.expected.netUsd ≤ a.expected.netUsd) ∧
    (∀ v : ℚ, ranked.filter (fun c => c.expected.netUsd = v) =
      candidates.filter (fun c => c.expected.netUsd = v)) ∧
    (∀ c ∈ fired results, risk.minProfitUsd < c.1.expected.netUsd ∧ c.2 = tipFor c.1 ∧
      c.2 ≤ risk.maxTipPerTxUsd) ∧
    ((fired results).map fun c => c.1.flashSource.reserve).Nodup ∧
    (fired results ≠ [] → ((fired results).map Prod.snd).sum ≤ risk.maxTipPerSlotUsd) ∧
    (treasuryBalanceSol < treasuryConfig.minBalanceSol → fired results = []) := by
  intro results ranked
  have hranked : ranked = candidates.insertionSort RanksBefore := arbitrate_routed _ _ _ _ _
  obtain ⟨st, hinv⟩ := slotInv_arbitrate risk treasuryConfig treasuryBalanceSol tipFor candidates
  have hadm := hinv.admissible
  refine ⟨?_, ?_, ?_, ?_, ?_, ?_, ?_⟩
  · rw [hranked]
    exact List.perm_insertionSort RanksBefore candidates
  · rw [hranked]
    exact arbitrate_sorted candidates
  · intro v
    rw [hranked]
    apply StableSort.filter_insertionSort
    intro a b ha hb
    rw [decide_eq_true_eq] at ha hb
    rw [ranksBefore_iff, ha, hb]
  · intro c hc
    have hmem : c.1 ∈ (fired results).map Prod.fst := List.mem_map_of_mem hc
    have htip := hinv.tips c hc
    exact ⟨hadm.profitable c.1 hmem, htip, htip ▸ hadm.perTx c.1 hmem⟩
  · have hnodup := hadm.reserves
    rw [List.map_map] at hnodup
    exact hnodup
  · intro hne
    have hslot := hadm.perSlot (by simpa using hne)
    rw [hinv.map_tips] at hslot
    exact hslot
  · intro hbal
    by_contra hne
    exact absurd hbal (not_lt.mpr (hadm.funded (by simpa using hne)))

/-! ## Arrival order -/

/-- **Arrival order does not matter.**  Candidates of pairwise different net
profit are arbitrated to the same result in whatever order they arrive. -/
theorem arbitrate_eq_of_perm (candidates other : List (RoutedCandidate ℚ)) (risk : RiskConfig ℚ)
    (treasuryConfig : TreasuryConfig ℚ) (treasuryBalanceSol : ℚ)
    (tipFor : RoutedCandidate ℚ → ℚ) (hperm : candidates.Perm other)
    (hnets : candidates.Pairwise fun a b => a.expected.netUsd ≠ b.expected.netUsd) :
    arbitrate candidates risk treasuryConfig treasuryBalanceSol tipFor =
      arbitrate other risk treasuryConfig treasuryBalanceSol tipFor := by
  unfold arbitrate
  rw [StableSort.insertionSort_eq_of_perm RanksBefore hperm]
  intro a ha b hb hab hba
  rw [ranksBefore_iff] at hab hba
  exact List.inj_on_of_nodup_map (List.pairwise_map.mpr hnets) ha hb (le_antisymm hba hab)

/-- Two candidates on one reserve and one on another, in two orders: the same
one of the two fires. -/
theorem arbitrate_eq_of_perm_three :
    let routed (reserve : UInt8) (net : ℚ) : RoutedCandidate ℚ :=
      ⟨⟨.kamino, Bytes32.fill reserve, Bytes32.fill 7, Bytes32.fill 8, 9 / 10, 100, 1⟩, 100,
        ⟨.kamino, Bytes32.fill reserve, 0⟩, ⟨net, 0, 0, 0, 0, net⟩⟩
    let run (candidates : List (RoutedCandidate ℚ)) :=
      arbitrate candidates ⟨10, 0, 4, 1, 5, 8, 1, 100, 3⟩ ⟨"", 1, ""⟩ 2 fun _ => 4
    run [routed 1 20, routed 2 15, routed 1 30] = run [routed 1 30, routed 1 20, routed 2 15] ∧
      (run [routed 1 20, routed 2 15, routed 1 30]).map ArbitratedCandidate.outcome =
        [.fire 4, .deferredReserveConflict, .fire 4] := by
  intro routed run
  refine ⟨?_, by decide +kernel⟩
  refine arbitrate_eq_of_perm _ _ _ _ _ _ ?_ (by decide +kernel)
  exact ((List.Perm.swap _ _ _).cons _).trans (List.Perm.swap _ _ _)

/-! ## Maximality -/

/-- The spend only grows: what was committed when `a` was decided is part of
what the whole window spends. -/
theorem committed_le_spent {candidates : List (RoutedCandidate ℚ)} {a : ArbitratedCandidate ℚ}
    {before after : List (ArbitratedCandidate ℚ)} {st : SlotState ℚ}
    (htips : ∀ c ∈ candidates, 0 ≤ tipFor c)
    (hsplit : arbitrate candidates risk treasuryConfig treasuryBalanceSol tipFor =
      before ++ a :: after)
    (hinv : SlotInv risk treasuryConfig treasuryBalanceSol tipFor before st) :
    st.budget.committedUsd ≤
      ((fired (arbitrate candidates risk treasuryConfig treasuryBalanceSol tipFor)).map
        Prod.snd).sum := by
  have hnonneg : ∀ c ∈ fired (arbitrate candidates risk treasuryConfig treasuryBalanceSol tipFor),
      0 ≤ c.2 := tip_nonneg_of_fired htips
  rw [hsplit, fired_append] at hnonneg ⊢
  have htail : 0 ≤ ((fired (a :: after)).map Prod.snd).sum := by
    refine List.sum_nonneg fun tip htip => ?_
    obtain ⟨c, hc, rfl⟩ := List.mem_map.mp htip
    exact hnonneg c (List.mem_append_right _ hc)
  rw [List.map_append, List.sum_append, hinv.committed]
  linarith

theorem not_admissible_of_reserve {c c' : RoutedCandidate ℚ} {cs : List (RoutedCandidate ℚ)}
    (hmem : c' ∈ cs) (hreserve : c'.flashSource.reserve = c.flashSource.reserve) :
    ¬ Admissible risk treasuryConfig treasuryBalanceSol tipFor (c :: cs) := by
  intro hadd
  exact (List.nodup_cons.mp hadd.reserves).1 (List.mem_map.mpr ⟨c', hmem, hreserve⟩)

theorem not_admissible_of_budget {c : RoutedCandidate ℚ} {cs : List (RoutedCandidate ℚ)}
    (hcause : treasuryBalanceSol < treasuryConfig.minBalanceSol ∨
      risk.maxTipPerTxUsd < tipFor c ∨
      risk.maxTipPerSlotUsd < tipFor c + (cs.map tipFor).sum) :
    ¬ Admissible risk treasuryConfig treasuryBalanceSol tipFor (c :: cs) := by
  intro hadd
  rcases hcause with hbal | htx | hslot
  · exact absurd (hadd.funded (List.cons_ne_nil _ _)) (not_le.mpr hbal)
  · exact absurd (hadd.perTx c List.mem_cons_self) (not_le.mpr htx)
  · have hsum := hadd.perSlot (List.cons_ne_nil _ _)
    rw [List.map_cons, List.sum_cons] at hsum
    exact absurd hsum (not_le.mpr hslot)

/-- A lock was taken by a candidate that fired earlier, so it ranks higher. -/
theorem exists_fired_of_locked {candidates : List (RoutedCandidate ℚ)} {a : ArbitratedCandidate ℚ}
    {before after : List (ArbitratedCandidate ℚ)} {st : SlotState ℚ}
    (hsplit : arbitrate candidates risk treasuryConfig treasuryBalanceSol tipFor =
      before ++ a :: after)
    (hinv : SlotInv risk treasuryConfig treasuryBalanceSol tipFor before st)
    (hlocked : a.routed.flashSource.reserve ∈ st.lockedReserves) :
    ∃ c ∈ fired (arbitrate candidates risk treasuryConfig treasuryBalanceSol tipFor),
      c.1.flashSource.reserve = a.routed.flashSource.reserve ∧
        a.routed.expected.netUsd ≤ c.1.expected.netUsd := by
  rw [hinv.locked] at hlocked
  obtain ⟨c, hc, hreserve⟩ := List.mem_map.mp hlocked
  refine ⟨c, ?_, hreserve, le_net_of_fired_before hsplit hc⟩
  rw [hsplit, fired_append]
  exact List.mem_append_left _ hc

/-- A check that fails on the spend so far fails on any larger spend. -/
theorem cause_of_check_ne_approved {budget : SlotBudget ℚ} {tipUsd spent : ℚ}
    (hdec : budget.check tipUsd treasuryBalanceSol risk treasuryConfig ≠ .approved)
    (hspent : budget.committedUsd ≤ spent) :
    treasuryBalanceSol < treasuryConfig.minBalanceSol ∨ risk.maxTipPerTxUsd < tipUsd ∨
      risk.maxTipPerSlotUsd < tipUsd + spent := by
  rw [Ne, SlotBudget.check_eq_approved_iff] at hdec
  by_contra hno
  rw [not_or, not_or, not_lt, not_lt, not_lt] at hno
  obtain ⟨hbal, htx, hslot⟩ := hno
  exact hdec ⟨not_lt.mpr hbal, not_lt.mpr htx, by linarith⟩

/-- **No candidate is withheld without cause.**  Every deferral stands against
the final set of fired candidates, not only against the state it was decided
in: no deferred candidate can be added to what fired. -/
theorem arbitrate_withholds_with_cause (candidates : List (RoutedCandidate ℚ))
    (risk : RiskConfig ℚ) (treasuryConfig : TreasuryConfig ℚ) (treasuryBalanceSol : ℚ)
    (tipFor : RoutedCandidate ℚ → ℚ) (htips : ∀ c ∈ candidates, 0 ≤ tipFor c) :
    let results := arbitrate candidates risk treasuryConfig treasuryBalanceSol tipFor
    let spent := ((fired results).map Prod.snd).sum
    ∀ a ∈ results,
      (a.outcome = .discarded ↔ a.routed.expected.netUsd ≤ risk.minProfitUsd) ∧
      (a.outcome = .deferredReserveConflict → ∃ c ∈ fired results,
        c.1.flashSource.reserve = a.routed.flashSource.reserve ∧
        a.routed.expected.netUsd ≤ c.1.expected.netUsd) ∧
      (∀ decision, a.outcome = .deferredBudget decision →
        treasuryBalanceSol < treasuryConfig.minBalanceSol ∨
        risk.maxTipPerTxUsd < tipFor a.routed ∨
        risk.maxTipPerSlotUsd < tipFor a.routed + spent) ∧
      ((a.outcome = .deferredReserveConflict ∨ ∃ decision, a.outcome = .deferredBudget decision) →
        ¬ Admissible risk treasuryConfig treasuryBalanceSol tipFor
          (a.routed :: (fired results).map Prod.fst)) := by
  intro results spent a ha
  refine ⟨outcome_eq_discarded_iff ha, ?_⟩
  obtain ⟨before, after, st, hsplit, hinv, hout⟩ := arbitrate_split ha
  obtain ⟨-, e⟩ | ⟨-, hres, e⟩ | ⟨-, -, decision, hdec, hcheck, e⟩ | ⟨-, -, -, e⟩ :=
    arbitrateOne_cases risk treasuryConfig treasuryBalanceSol tipFor st a.routed
  · have ho : a.outcome = .discarded := by rw [← hout, e]
    simp [ho]
  · have ho : a.outcome = .deferredReserveConflict := by rw [← hout, e]
    obtain ⟨c, hmem, hreserve, hnet⟩ := exists_fired_of_locked hsplit hinv hres
    exact ⟨fun _ => ⟨c, hmem, hreserve, hnet⟩, by simp [ho],
      fun _ => not_admissible_of_reserve (List.mem_map_of_mem hmem) hreserve⟩
  · have ho : a.outcome = .deferredBudget decision := by rw [← hout, e]
    have hspent : st.budget.committedUsd ≤ spent := committed_le_spent htips hsplit hinv
    have hcause := cause_of_check_ne_approved (hcheck ▸ hdec) hspent
    obtain ⟨_, hfinal⟩ := slotInv_arbitrate risk treasuryConfig treasuryBalanceSol tipFor candidates
    refine ⟨by simp [ho], fun _ _ => hcause, fun _ => ?_⟩
    apply not_admissible_of_budget
    rw [hfinal.map_tips]
    exact hcause
  · have ho : a.outcome = .fire (tipFor a.routed) := by rw [← hout, e]
    simp [ho]

/-- Three candidates, a per-slot cap for one tip: the second is deferred behind
the first one's reserve, the third behind its tip. -/
theorem arbitrate_withholds_with_cause_three :
    let routed (reserve : UInt8) (net : ℚ) : RoutedCandidate ℚ :=
      ⟨⟨.kamino, Bytes32.fill reserve, Bytes32.fill 7, Bytes32.fill 8, 9 / 10, 100, 1⟩, 100,
        ⟨.kamino, Bytes32.fill reserve, 0⟩, ⟨net, 0, 0, 0, 0, net⟩⟩
    let risk : RiskConfig ℚ := ⟨10, 0, 4, 1, 5, 8, 1, 100, 3⟩
    let results := arbitrate [routed 1 20, routed 1 30, routed 2 15] risk ⟨"", 1, ""⟩ 2 fun _ => 5
    results.map ArbitratedCandidate.outcome =
        [.fire 5, .deferredReserveConflict, .deferredBudget .exceedsPerSlotBudget] ∧
      ¬ Admissible risk ⟨"", 1, ""⟩ 2 (fun _ => 5)
        (routed 2 15 :: (fired results).map Prod.fst) := by
  intro routed risk results
  refine ⟨by decide +kernel, ?_⟩
  have hcause := arbitrate_withholds_with_cause [routed 1 20, routed 1 30, routed 2 15] risk
    ⟨"", 1, ""⟩ 2 (fun _ => 5) (fun _ _ => by norm_num)
  have hmem : (⟨routed 2 15, .deferredBudget .exceedsPerSlotBudget⟩ : ArbitratedCandidate ℚ) ∈
      results := by decide +kernel
  exact (hcause _ hmem).2.2.2 (Or.inr ⟨_, rfl⟩)

end Window

end Gyrfalcon
