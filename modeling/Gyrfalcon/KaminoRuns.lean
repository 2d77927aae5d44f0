import Gyrfalcon.Kamino

/-!
# What the adapter's state is

The snapshot maps of `KaminoAdapter` as functions of the feed: under each key,
the snapshot of the last decodable update of that key and type.  Everything
else a feed can hold (foreign owners, short or undecodable data, unknown
discriminators, other accounts, obligations) leaves them alone, so a breach
candidate depends only on the accounts its obligation names.
-/

namespace Gyrfalcon

namespace KaminoAdapter

variable (klend : Klend.Interface)

/-! ## Decodable updates -/

/-- The update reaches the handler of `kind`, and its body decodes. -/
def decodesAs (kind : AccountKind) (update : AccountUpdate) : Bool :=
  kindOf klend update = some kind &&
    match kind with
    | .reserve => (klend.reserve update.data).isSome
    | .lendingMarket => (klend.lendingMarket update.data).isSome
    | .obligation => (klend.obligation update.data).isSome

/-- The last delivered decodable update of the account `key`. -/
def lastDecodable (kind : AccountKind) (key : Pubkey) (updates : List AccountUpdate) :
    Option AccountUpdate :=
  (updates.filter fun update => decodesAs klend kind update && update.pubkey = key).getLast?

/-- What one kind of update writes under a key, when it decodes. -/
theorem written_isSome {A V : Type} (kind : AccountKind) (decode : List UInt8 → Option A)
    (snapshot : A → Nat → V) (key : Pubkey) (update : AccountUpdate) :
    (LastWrite.written (fun update : AccountUpdate =>
        if kindOf klend update = some kind then
          (decode update.data).map fun account => (update.pubkey, snapshot account update.slot)
        else none) key update).isSome =
      (decide (kindOf klend update = some kind) && (decode update.data).isSome &&
        decide (update.pubkey = key)) := by
  unfold LastWrite.written
  by_cases hkind : kindOf klend update = some kind
  · cases hdata : decode update.data with
    | none => simp [hkind, hdata]
    | some account =>
      by_cases hkey : update.pubkey = key
      · simp [hkind, hdata, hkey]
      · simp [hkind, hdata, hkey]
  · simp [hkind]

theorem written_reserveWrite_isSome (key : Pubkey) (update : AccountUpdate) :
    (LastWrite.written (reserveWrite klend) key update).isSome =
      (decodesAs klend .reserve update && decide (update.pubkey = key)) :=
  written_isSome klend .reserve klend.reserve reserveSnapshot key update

theorem written_marketWrite_isSome (key : Pubkey) (update : AccountUpdate) :
    (LastWrite.written (marketWrite klend) key update).isSome =
      (decodesAs klend .lendingMarket update && decide (update.pubkey = key)) :=
  written_isSome klend .lendingMarket klend.lendingMarket
    (fun market slot => LendingMarketSnapshot.mk market.liquidationMaxDebtCloseFactorPct
      market.maxLiquidatableDebtMarketValueAtOnce slot) key update

/-- The reserve map is the fold of last decodable reserve updates. -/
theorem lookup_reserves_after (key : Pubkey) (updates : List AccountUpdate) :
    (after klend updates).reserves.lookup key =
      (lastDecodable klend .reserve key updates).bind
        (LastWrite.written (reserveWrite klend) key) := by
  rw [after_reserves, LastWrite.lookup_foldl_write_empty, LastWrite.getLast?_writesTo]
  simp only [written_reserveWrite_isSome, lastDecodable]

/-- The market map is the fold of last decodable market updates. -/
theorem lookup_lendingMarkets_after (key : Pubkey) (updates : List AccountUpdate) :
    (after klend updates).lendingMarkets.lookup key =
      (lastDecodable klend .lendingMarket key updates).bind
        (LastWrite.written (marketWrite klend) key) := by
  rw [after_lendingMarkets, LastWrite.lookup_foldl_write_empty, LastWrite.getLast?_writesTo]
  simp only [written_marketWrite_isSome, lastDecodable]

/-! ## What a candidate depends on -/

/-- The active borrow of largest market value. -/
def largestBorrow (obligation : Klend.Obligation) : Option Klend.ObligationLiquidity :=
  Extremum.maxBy (fun a b => compare a.marketValue b.marketValue)
    (obligation.borrows.filter (·.isActive))

/-- The active deposit of largest market value. -/
def largestDeposit (obligation : Klend.Obligation) : Option Klend.ObligationCollateral :=
  Extremum.maxBy (fun a b => compare a.marketValue b.marketValue)
    (obligation.deposits.filter (·.isActive))

/-- Two feeds agree on the three accounts that `obligation` names. -/
structure SameNamed (obligation : Klend.Obligation) (first second : List AccountUpdate) :
    Prop where
  market : lastDecodable klend .lendingMarket obligation.lendingMarket first =
    lastDecodable klend .lendingMarket obligation.lendingMarket second
  debt : ∀ liquidity, largestBorrow obligation = some liquidity →
    lastDecodable klend .reserve liquidity.borrowReserve first =
      lastDecodable klend .reserve liquidity.borrowReserve second
  collateral : ∀ collateral, largestDeposit obligation = some collateral →
    lastDecodable klend .reserve collateral.depositReserve first =
      lastDecodable klend .reserve collateral.depositReserve second

/-- The chain of lookups, with the two choices named. -/
theorem resolve_eq (self : KaminoAdapter) (obligation : Klend.Obligation) :
    self.resolve obligation = do
      let lendingMarket ← self.lendingMarkets.lookup obligation.lendingMarket
      let liquidity ← largestBorrow obligation
      let debtReserve ← self.reserves.lookup liquidity.borrowReserve
      let collateral ← largestDeposit obligation
      let collateralReserve ← self.reserves.lookup collateral.depositReserve
      return ⟨lendingMarket, liquidity, debtReserve, collateralReserve⟩ := rfl

theorem SameNamed.resolve_eq {obligation : Klend.Obligation} {first second : List AccountUpdate}
    (h : SameNamed klend obligation first second) :
    (after klend first).resolve obligation = (after klend second).resolve obligation := by
  rw [KaminoAdapter.resolve_eq, KaminoAdapter.resolve_eq, lookup_lendingMarkets_after,
    lookup_lendingMarkets_after, h.market]
  cases hborrow : largestBorrow obligation with
  | none => rfl
  | some liquidity =>
    simp only [Option.bind_eq_bind, Option.bind_some, lookup_reserves_after,
      h.debt liquidity hborrow]
    cases hdeposit : largestDeposit obligation with
    | none => rfl
    | some collateral =>
      simp only [Option.bind_some, h.collateral collateral hdeposit]

/-- **A candidate depends only on what it names.**  Two feeds that agree on the
last decodable update of the obligation's lending market, of the reserve of its
largest active borrow and of the reserve of its largest active deposit give the
same candidate for it, whatever else they delivered. -/
theorem candidate_depends_on_named (klend : Klend.Interface) (first second : List AccountUpdate)
    (update : AccountUpdate)
    (h : ∀ obligation, klend.obligation update.data = some obligation →
      SameNamed klend obligation first second) :
    ((after klend first).onAccountUpdate klend update).2 =
      ((after klend second).onAccountUpdate klend update).2 :=
  onAccountUpdate_snd_congr_resolve klend fun obligation hdata => (h obligation hdata).resolve_eq

/-- An older price, a truncated account, a foreign account and another
obligation in one feed and not in the other: the candidate is the same. -/
theorem candidate_depends_on_named_noise :
    let first := [Klend.sampleMarket 7, Klend.sampleReserve 1 5]
    let second := [Klend.sampleReserve 2 3, Klend.sampleReserve 1 5,
      ⟨Bytes32.fill 1, kaminoProgramId, [43, 242, 204], 6⟩,
      ⟨Bytes32.fill 1, Bytes32.fill 0, [43, 242, 204, 202, 26, 247, 59, 127, 2, 3], 6⟩,
      Klend.sampleMarket 7, Klend.sampleObligation (Bytes32.fill 6) 8]
    let obligation := Klend.sampleObligation (Bytes32.fill 5) 9
    let candidate (updates : List AccountUpdate) :=
      ((after Klend.sample updates).onAccountUpdate Klend.sample obligation).2
    candidate first = candidate second ∧
      (candidate first).map BreachCandidate.closeFactorMaxRepay = some 20000000 := by
  intro first second obligation candidate
  refine ⟨?_, by decide +kernel⟩
  refine candidate_depends_on_named Klend.sample first second obligation fun decoded hdecoded => ?_
  obtain rfl := Option.some.inj hdecoded
  refine ⟨by decide, fun liquidity hborrow => ?_, fun collateral hdeposit => ?_⟩
  · obtain rfl := Option.some.inj hborrow
    decide
  · obtain rfl := Option.some.inj hdeposit
    decide

end KaminoAdapter

end Gyrfalcon
