import Gyrfalcon.Core
import Gyrfalcon.Lib.LastWrite
import Gyrfalcon.Lib.StableSort
import Mathlib.Algebra.Order.Field.Rat

/-!
# DEX router (`router/src/dex.rs`)

Quotes are kept per mint pair in the order of registration.  `selectRoute_best`
reads the selection off that list; nothing is ever taken out of it, so a
refreshed pool has its old quote in it too, and `noStaleQuote_iff` says when
that one is selected.
-/

namespace Gyrfalcon

open LastWrite (HashMap)

/-! ## Quotes -/

inductive DexVenue where
  | raydiumClmm
  | orcaWhirlpool
  | sanctum
  | marinade
  deriving DecidableEq, Repr

def DexVenue.isDirect (_ : DexVenue) : Bool := true

structure MarketQuote where
  venue : DexVenue
  marketAddress : Pubkey
  availableDepth : Nat
  expectedOutAmount : Nat
  feeBps : Nat
  priceImpactBps : Nat
  deriving DecidableEq, Repr

structure DexRouteDecision where
  selectedVenue : DexVenue
  marketAddress : Pubkey
  expectedOutAmount : Nat
  effectivePrice : ℚ
  consideredVenues : List MarketQuote
  fallbackUsed : Bool
  deriving DecidableEq, Repr

/-! ## The router -/

structure DexRouter where
  maxPriceImpactBps : Nat
  markets : HashMap (Pubkey × Pubkey) (List MarketQuote)

namespace DexRouter

def new (maxPriceImpactBps : Nat) : DexRouter := ⟨maxPriceImpactBps, ∅⟩

def registerMarketQuote (self : DexRouter) (inputMint outputMint : Pubkey) (quote : MarketQuote) :
    DexRouter :=
  let quotes := (self.markets.lookup (inputMint, outputMint)).getD []
  { self with markets := self.markets.insert (inputMint, outputMint) (quotes ++ [quote]) }

/-- The filter of `select_route`. -/
def admits (maxPriceImpactBps amountIn : Nat) (quote : MarketQuote) : Bool :=
  quote.venue.isDirect && decide (amountIn ≤ quote.availableDepth) &&
    decide (quote.priceImpactBps ≤ maxPriceImpactBps)

/-- Highest output first, then the order of registration. -/
def compareQuotes (a b : MarketQuote × Nat) : Ordering :=
  (compare b.1.expectedOutAmount a.1.expectedOutAmount).then (compare a.2 b.2)

/-- The first of the sorted candidates, if any. -/
def winner (maxPriceImpactBps amountIn : Nat) (quotes : List MarketQuote) : Option MarketQuote :=
  let candidates := quotes.zipIdx.filter fun c => admits maxPriceImpactBps amountIn c.1
  ((candidates.insertionSort fun a b => compareQuotes a b ≠ .gt).head?).map Prod.fst

/-- The decision for a winner among `quotes`. -/
def decisionFor (amountIn : Nat) (quotes : List MarketQuote) (winner : MarketQuote) :
    DexRouteDecision where
  selectedVenue := winner.venue
  marketAddress := winner.marketAddress
  expectedOutAmount := winner.expectedOutAmount
  effectivePrice := if 0 < amountIn then (winner.expectedOutAmount : ℚ) / amountIn else 0
  consideredVenues := quotes
  fallbackUsed := false

def selectRoute (self : DexRouter) (inputMint outputMint : Pubkey) (amountIn : Nat) :
    Option DexRouteDecision :=
  match self.markets.lookup (inputMint, outputMint) with
  | none => none
  | some quotes =>
    if quotes.isEmpty then none
    else (winner self.maxPriceImpactBps amountIn quotes).map (decisionFor amountIn quotes)

/-! ## The winner -/

theorem compareQuotes_ne_gt_iff (a b : MarketQuote × Nat) :
    compareQuotes a b ≠ .gt ↔ b.1.expectedOutAmount < a.1.expectedOutAmount ∨
      a.1.expectedOutAmount = b.1.expectedOutAmount ∧ a.2 ≤ b.2 := by
  rw [compareQuotes, Ne, Ordering.then_eq_gt, Nat.compare_eq_gt, Nat.compare_eq_eq,
    Nat.compare_eq_gt]
  omega

instance : Std.Total fun a b : MarketQuote × Nat => compareQuotes a b ≠ .gt where
  total a b := by
    simp only [compareQuotes_ne_gt_iff]
    omega

instance : IsTrans (MarketQuote × Nat) fun a b => compareQuotes a b ≠ .gt where
  trans a b c hab hbc := by
    simp only [compareQuotes_ne_gt_iff] at hab hbc ⊢
    omega

variable {limit amountIn : Nat} {quotes : List MarketQuote}

theorem mem_candidates_iff {q : MarketQuote} {i : Nat} :
    (q, i) ∈ quotes.zipIdx.filter (fun c => admits limit amountIn c.1) ↔
      quotes[i]? = some q ∧ admits limit amountIn q = true := by
  rw [List.mem_filter, List.mem_zipIdx_iff_getElem?]

theorem winner_isSome_iff :
    (winner limit amountIn quotes).isSome ↔ ∃ q ∈ quotes, admits limit amountIn q = true := by
  rw [winner, Option.isSome_map, StableSort.isSome_head_insertionSort]
  constructor
  · intro hne
    obtain ⟨⟨q, i⟩, hmem⟩ := List.exists_mem_of_ne_nil _ hne
    obtain ⟨hq, hadmits⟩ := mem_candidates_iff.mp hmem
    exact ⟨q, List.mem_of_getElem? hq, hadmits⟩
  · rintro ⟨q, hq, hadmits⟩
    obtain ⟨i, hi⟩ := List.mem_iff_getElem?.mp hq
    exact List.ne_nil_of_mem (mem_candidates_iff.mpr ⟨hi, hadmits⟩)

/-- `quotes` up to `q`, `q`, and the rest: `q` is admitted, better than every
admitted quote before it and as good as every one after it. -/
structure Best (limit amountIn : Nat) (before : List MarketQuote) (q : MarketQuote)
    (after : List MarketQuote) : Prop where
  admitted : admits limit amountIn q = true
  better : ∀ q' ∈ before, admits limit amountIn q' = true →
    q'.expectedOutAmount < q.expectedOutAmount
  asGood : ∀ q' ∈ after, admits limit amountIn q' = true →
    q'.expectedOutAmount ≤ q.expectedOutAmount

/-- The winner has the highest output, and is the first of those. -/
theorem best_of_winner {q : MarketQuote} (h : winner limit amountIn quotes = some q) :
    ∃ before after, quotes = before ++ q :: after ∧ Best limit amountIn before q after := by
  obtain ⟨⟨q', i⟩, hhead, rfl⟩ := Option.map_eq_some_iff.mp h
  obtain ⟨hmem, hfirst⟩ := StableSort.head_insertionSort _ hhead
  obtain ⟨hi, hadmits⟩ := mem_candidates_iff.mp hmem
  obtain ⟨hlt, hget⟩ := List.getElem?_eq_some_iff.mp hi
  have hrank : ∀ j q, quotes[j]? = some q → admits limit amountIn q = true →
      q.expectedOutAmount < q'.expectedOutAmount ∨
        q'.expectedOutAmount = q.expectedOutAmount ∧ i ≤ j := by
    intro j q hj hq
    exact (compareQuotes_ne_gt_iff _ _).mp (hfirst (q, j) (mem_candidates_iff.mpr ⟨hj, hq⟩))
  refine ⟨quotes.take i, quotes.drop (i + 1), ?_, hadmits, ?_, ?_⟩
  · rw [← hget, ← List.drop_eq_getElem_cons hlt, List.take_append_drop]
  · intro q hq hadm
    obtain ⟨j, hj⟩ := List.mem_iff_getElem?.mp hq
    have hji : j < i := by
      have hlen := (List.getElem?_eq_some_iff.mp hj).1
      rw [List.length_take] at hlen
      omega
    rw [List.getElem?_take_of_lt hji] at hj
    have hranked := hrank j q hj hadm
    show q.expectedOutAmount < q'.expectedOutAmount
    omega
  · intro q hq hadm
    obtain ⟨j, hj⟩ := List.mem_iff_getElem?.mp hq
    rw [List.getElem?_drop] at hj
    have hranked := hrank _ q hj hadm
    show q.expectedOutAmount ≤ q'.expectedOutAmount
    omega

/-! ## Registrations -/

/-- One call of `register_market_quote`. -/
structure Registration where
  inputMint : Pubkey
  outputMint : Pubkey
  quote : MarketQuote
  deriving DecidableEq, Repr

/-- The router after a sequence of calls. -/
def registerAll (limit : Nat) (calls : List Registration) : DexRouter :=
  calls.foldl (fun router call =>
    router.registerMarketQuote call.inputMint call.outputMint call.quote) (new limit)

/-- The quotes registered for a pair, in order. -/
def quotesFor (inputMint outputMint : Pubkey) (calls : List Registration) : List MarketQuote :=
  calls.filterMap fun call =>
    if call.inputMint = inputMint ∧ call.outputMint = outputMint then some call.quote else none

section Registered

variable (limit) (calls : List Registration) (inputMint outputMint : Pubkey)

theorem registerAll_concat (call : Registration) :
    registerAll limit (calls ++ [call]) =
      (registerAll limit calls).registerMarketQuote call.inputMint call.outputMint call.quote := by
  rw [registerAll, List.foldl_append]
  rfl

theorem quotesFor_concat (call : Registration) :
    quotesFor inputMint outputMint (calls ++ [call]) =
      if call.inputMint = inputMint ∧ call.outputMint = outputMint then
        quotesFor inputMint outputMint calls ++ [call.quote]
      else quotesFor inputMint outputMint calls := by
  rw [quotesFor, List.filterMap_append]
  split
  · next h => simp [quotesFor, h]
  · next h => simp [quotesFor, h]

theorem maxPriceImpactBps_registerAll : (registerAll limit calls).maxPriceImpactBps = limit := by
  induction calls using List.reverseRecOn with
  | nil => rfl
  | append_singleton calls call ih =>
    rw [registerAll_concat]
    exact ih

/-- The router holds what was registered, pair by pair. -/
theorem lookup_registerAll :
    ((registerAll limit calls).markets.lookup (inputMint, outputMint)).getD [] =
      quotesFor inputMint outputMint calls := by
  induction calls using List.reverseRecOn with
  | nil => rfl
  | append_singleton calls call ih =>
    rw [registerAll_concat, quotesFor_concat]
    rw [registerMarketQuote]
    by_cases hpair : call.inputMint = inputMint ∧ call.outputMint = outputMint
    · obtain ⟨rfl, rfl⟩ := hpair
      rw [AList.lookup_insert, if_pos ⟨rfl, rfl⟩, ← ih]
      rfl
    · have hne : (inputMint, outputMint) ≠ (call.inputMint, call.outputMint) := by
        intro heq
        obtain ⟨hinput, houtput⟩ := Prod.mk.inj heq
        exact hpair ⟨hinput.symm, houtput.symm⟩
      rw [AList.lookup_insert_ne hne, if_neg hpair, ih]

/-- The selection is a function of the quotes of the pair. -/
theorem selectRoute_registerAll (amountIn : Nat) :
    (registerAll limit calls).selectRoute inputMint outputMint amountIn =
      (winner limit amountIn (quotesFor inputMint outputMint calls)).map
        (decisionFor amountIn (quotesFor inputMint outputMint calls)) := by
  have hlookup := lookup_registerAll limit calls inputMint outputMint
  rw [selectRoute, maxPriceImpactBps_registerAll, ← hlookup]
  cases (registerAll limit calls).markets.lookup (inputMint, outputMint) with
  | none => rfl
  | some quotes =>
    cases quotes with
    | nil => rfl
    | cons q quotes => rfl

end Registered

/-- **DEX selection.**  After any registrations there is a route exactly when a
quote of the pair has the depth within the impact limit.  It is the first of
those with the highest output, with every quote of the pair in the audit trail,
and quotes of other pairs do not matter. -/
theorem selectRoute_best (limit : Nat) (calls : List Registration)
    (inputMint outputMint : Pubkey) (amountIn : Nat) :
    let quotes := quotesFor inputMint outputMint calls
    let selected := (registerAll limit calls).selectRoute inputMint outputMint amountIn
    (selected.isSome ↔
        ∃ q ∈ quotes, amountIn ≤ q.availableDepth ∧ q.priceImpactBps ≤ limit) ∧
      (∀ decision, selected = some decision →
        ∃ before q after, quotes = before ++ q :: after ∧ Best limit amountIn before q after ∧
          decision = decisionFor amountIn quotes q) ∧
      ∀ calls', quotesFor inputMint outputMint calls' = quotes →
        (registerAll limit calls').selectRoute inputMint outputMint amountIn = selected := by
  intro quotes selected
  have hselected : selected = (winner limit amountIn quotes).map (decisionFor amountIn quotes) :=
    selectRoute_registerAll limit calls inputMint outputMint amountIn
  refine ⟨?_, ?_, ?_⟩
  · rw [hselected, Option.isSome_map, winner_isSome_iff]
    simp [admits, DexVenue.isDirect]
  · intro decision h
    rw [hselected] at h
    obtain ⟨q, hwinner, rfl⟩ := Option.map_eq_some_iff.mp h
    obtain ⟨before, after, hsplit, hbest⟩ := best_of_winner hwinner
    exact ⟨before, q, after, hsplit, hbest, rfl⟩
  · intro calls' hquotes
    rw [hselected, selectRoute_registerAll, hquotes]

/-- Two quotes tie behind a better one that is too thin: the first of the two. -/
theorem selectRoute_best_tied :
    let quote (venue : DexVenue) (market : UInt8) (depth out : Nat) : MarketQuote :=
      ⟨venue, Bytes32.fill market, depth, out, 5, 10⟩
    let calls : List Registration :=
      [⟨Bytes32.fill 1, Bytes32.fill 2, quote .sanctum 10 50 999⟩,
        ⟨Bytes32.fill 1, Bytes32.fill 2, quote .raydiumClmm 20 500 980⟩,
        ⟨Bytes32.fill 1, Bytes32.fill 3, quote .marinade 30 500 2000⟩,
        ⟨Bytes32.fill 1, Bytes32.fill 2, quote .orcaWhirlpool 40 500 980⟩]
    ((registerAll 200 calls).selectRoute (Bytes32.fill 1) (Bytes32.fill 2) 100).isSome = true ∧
      ((registerAll 200 calls).selectRoute (Bytes32.fill 1) (Bytes32.fill 2) 100).map
        DexRouteDecision.selectedVenue = some .raydiumClmm := by
  intro quote calls
  obtain ⟨hsome, -, -⟩ := selectRoute_best 200 calls (Bytes32.fill 1) (Bytes32.fill 2) 100
  refine ⟨hsome.mpr ?_, by decide +kernel⟩
  exact ⟨quote .raydiumClmm 20 500 980, by decide +kernel, by decide, by decide⟩

/-! ## Refreshed pools -/

/-- The last quote of a pool. -/
def latestQuote (venue : DexVenue) (marketAddress : Pubkey) (quotes : List MarketQuote) :
    Option MarketQuote :=
  (quotes.filter fun q => q.venue = venue ∧ q.marketAddress = marketAddress).getLast?

/-- The quote has the output, depth and impact of the last one of its pool. -/
def Current (quotes : List MarketQuote) (q : MarketQuote) : Prop :=
  ∃ latest, latestQuote q.venue q.marketAddress quotes = some latest ∧
    latest.expectedOutAmount = q.expectedOutAmount ∧
    latest.availableDepth = q.availableDepth ∧ latest.priceImpactBps = q.priceImpactBps

/-- What is selected is current. -/
def NoStaleQuote (limit : Nat) (calls : List Registration) (inputMint outputMint : Pubkey)
    (amountIn : Nat) : Prop :=
  let quotes := quotesFor inputMint outputMint calls
  ∀ decision, (registerAll limit calls).selectRoute inputMint outputMint amountIn = some decision →
    ∃ q, winner limit amountIn quotes = some q ∧ decision = decisionFor amountIn quotes q ∧
      Current quotes q

/-- Every admitted quote that is not current has an admitted current one ahead
of it: with a higher output, or with the same and registered before it. -/
def CurrentAhead (limit amountIn : Nat) (quotes : List MarketQuote) : Prop :=
  ∀ before q after, quotes = before ++ q :: after → admits limit amountIn q = true →
    ¬ Current quotes q → ∃ q', admits limit amountIn q' = true ∧ Current quotes q' ∧
      (q' ∈ quotes ∧ q.expectedOutAmount < q'.expectedOutAmount ∨
        q' ∈ before ∧ q.expectedOutAmount ≤ q'.expectedOutAmount)

/-- A quote elsewhere in the list is behind the best one. -/
theorem Best.ahead {before before' after after' : List MarketQuote} {q q' : MarketQuote}
    (h : Best limit amountIn before q after) (hq : admits limit amountIn q' = true)
    (hsplit : before ++ q :: after = before' ++ q' :: after') (hne : q' ≠ q) :
    q'.expectedOutAmount < q.expectedOutAmount ∨
      q ∈ before' ∧ q'.expectedOutAmount ≤ q.expectedOutAmount := by
  obtain ⟨middle, hbefore, hafter⟩ | ⟨middle, hbefore, hafter⟩ :=
    List.append_eq_append_iff.mp hsplit
  · cases middle with
    | nil => exact absurd (List.cons.inj hafter).1.symm hne
    | cons c middle =>
      obtain ⟨rfl, hrest⟩ := List.cons.inj hafter
      refine Or.inr ⟨by simp [hbefore], h.asGood q' ?_ hq⟩
      rw [hrest]
      exact List.mem_append_right middle List.mem_cons_self
  · cases middle with
    | nil => exact absurd (List.cons.inj hafter).1 hne
    | cons c middle =>
      obtain ⟨rfl, -⟩ := List.cons.inj hafter
      exact Or.inl (h.better q' (by simp [hbefore]) hq)

/-- **When no stale quote wins.** -/
theorem noStaleQuote_iff (limit : Nat) (calls : List Registration)
    (inputMint outputMint : Pubkey) (amountIn : Nat) :
    NoStaleQuote limit calls inputMint outputMint amountIn ↔
      CurrentAhead limit amountIn (quotesFor inputMint outputMint calls) := by
  have hselected := selectRoute_registerAll limit calls inputMint outputMint amountIn
  constructor
  · intro h before q after hsplit hadmits hstale
    have hq : q ∈ quotesFor inputMint outputMint calls := by simp [hsplit]
    obtain ⟨w, hw⟩ := Option.isSome_iff_exists.mp (winner_isSome_iff.mpr ⟨q, hq, hadmits⟩)
    obtain ⟨w', hw', -, hcurrent⟩ := h _ (by rw [hselected, hw]; rfl)
    obtain rfl := Option.some.inj (hw.symm.trans hw')
    obtain ⟨before', after', hsplit', hbest⟩ := best_of_winner hw
    have hne : q ≠ w := by
      rintro rfl
      exact hstale hcurrent
    refine ⟨w, hbest.admitted, hcurrent, ?_⟩
    rcases hbest.ahead hadmits (hsplit'.symm.trans hsplit) hne with hlt | ⟨hmem, hle⟩
    · exact Or.inl ⟨by simp [hsplit'], hlt⟩
    · exact Or.inr ⟨hmem, hle⟩
  · intro h decision hdecision
    rw [hselected] at hdecision
    obtain ⟨w, hw, rfl⟩ := Option.map_eq_some_iff.mp hdecision
    refine ⟨w, hw, rfl, ?_⟩
    obtain ⟨before, after, hsplit, hbest⟩ := best_of_winner hw
    by_contra hstale
    obtain ⟨q, hadmits, -, ⟨hq, hlt⟩ | ⟨hq, hle⟩⟩ := h before w after hsplit hbest.admitted hstale
    · rw [hsplit] at hq
      rcases List.mem_append.mp hq with hq | hq
      · have := hbest.better q hq hadmits
        omega
      · rcases List.mem_cons.mp hq with rfl | hq
        · omega
        · have := hbest.asGood q hq hadmits
          omega
    · have := hbest.better q hq hadmits
      omega

/-- A Raydium pool falls from 990 to 900 while Orca offers 950: the old quote is
selected. -/
theorem stale_quote_wins :
    let quote (venue : DexVenue) (market : UInt8) (out : Nat) : MarketQuote :=
      ⟨venue, Bytes32.fill market, 5000, out, 5, 10⟩
    let calls : List Registration :=
      [⟨Bytes32.fill 1, Bytes32.fill 2, quote .raydiumClmm 20 990⟩,
        ⟨Bytes32.fill 1, Bytes32.fill 2, quote .orcaWhirlpool 10 950⟩,
        ⟨Bytes32.fill 1, Bytes32.fill 2, quote .raydiumClmm 20 900⟩]
    ((registerAll 200 calls).selectRoute (Bytes32.fill 1) (Bytes32.fill 2) 1000).map
          DexRouteDecision.expectedOutAmount = some 990 ∧
      (latestQuote .raydiumClmm (Bytes32.fill 20)
          (quotesFor (Bytes32.fill 1) (Bytes32.fill 2) calls)).map
          MarketQuote.expectedOutAmount = some 900 ∧
      ¬ NoStaleQuote 200 calls (Bytes32.fill 1) (Bytes32.fill 2) 1000 := by
  intro quote calls
  refine ⟨by decide +kernel, by decide +kernel, ?_⟩
  intro h
  obtain ⟨q, hwinner, -, latest, hlatest, hout, -⟩ := h _ rfl
  have hq : q = quote .raydiumClmm 20 990 := by
    have hfirst : winner 200 1000 (quotesFor (Bytes32.fill 1) (Bytes32.fill 2) calls) =
        some (quote .raydiumClmm 20 990) := by decide +kernel
    exact Option.some.inj (hwinner.symm.trans hfirst)
  subst hq
  have hlast : latestQuote .raydiumClmm (Bytes32.fill 20)
      (quotesFor (Bytes32.fill 1) (Bytes32.fill 2) calls) = some (quote .raydiumClmm 20 900) := by
    decide +kernel
  obtain rfl := Option.some.inj (hlatest.symm.trans hlast)
  revert hout
  decide

end DexRouter

end Gyrfalcon
