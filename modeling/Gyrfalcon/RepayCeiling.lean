import Gyrfalcon.Kamino

/-!
# The repay ceiling (`max_repay_native_amount`)

klend limits one liquidation three times: by the borrowed amount, by the close
factor of the position's market value, and by the market's ceiling per
liquidation.  The adapter computes one native amount from the three; it is the
largest integer within all of them.  The limits are real numbers, and so the
arithmetic here is exact.
-/

namespace Gyrfalcon

/-! ## `as u64` -/

theorem toU64_le (q : ℚ) : toU64 q ≤ u64Max := Nat.min_le_right _ _

theorem cast_toU64_le {q : ℚ} (hq : 0 ≤ q) : (toU64 q : ℚ) ≤ q := by
  calc (toU64 q : ℚ) ≤ ((q.floor.toNat : Nat) : ℚ) := Nat.cast_le.mpr (Nat.min_le_left _ _)
    _ = ⌊q⌋ := cast_floor_toNat hq
    _ ≤ q := Int.floor_le q

theorem le_toU64 {q : ℚ} {n : Nat} (hn : n ≤ u64Max) (hq : (n : ℚ) ≤ q) : n ≤ toU64 q := by
  refine Nat.le_min.mpr ⟨?_, hn⟩
  have hfloor : (n : ℤ) ≤ ⌊q⌋ := Int.le_floor.mpr (by exact_mod_cast hq)
  have : (n : ℤ) ≤ q.floor := hfloor
  omega

/-! ## The three limits -/

/-- The value in USD of `n` native units at the reserve's price. -/
def ReserveSnapshot.valueOf (debtReserve : ReserveSnapshot) (n : Nat) : ℚ :=
  n * sfToRat debtReserve.marketPriceSf / 10 ^ debtReserve.mintDecimals

/-- Repaying `n` native units respects every limit of the protocol. -/
structure RepayWithin (market : LendingMarketSnapshot) (debtReserve : ReserveSnapshot)
    (liquidity : Klend.ObligationLiquidity) (n : Nat) : Prop where
  borrowed : (n : ℚ) ≤ sfToRat liquidity.borrowedAmount
  closeFactor : debtReserve.valueOf n ≤
    sfToRat liquidity.marketValue * market.liquidationMaxDebtCloseFactorPct / 100
  marketCap : debtReserve.valueOf n ≤ market.maxLiquidatableDebtMarketValueAtOnce

section

variable (market : LendingMarketSnapshot) (debtReserve : ReserveSnapshot)
  (liquidity : Klend.ObligationLiquidity)

/-- The smaller of the two limits in USD. -/
def cappedMarketValue : ℚ :=
  min (sfToRat liquidity.marketValue * (market.liquidationMaxDebtCloseFactorPct / 100))
    market.maxLiquidatableDebtMarketValueAtOnce

theorem cappedMarketValue_nonneg : 0 ≤ cappedMarketValue market liquidity := by
  have := sfToRat_nonneg liquidity.marketValue
  unfold cappedMarketValue
  positivity

theorem repayWithin_iff (n : Nat) : RepayWithin market debtReserve liquidity n ↔
    (n : ℚ) ≤ sfToRat liquidity.borrowedAmount ∧
      debtReserve.valueOf n ≤ cappedMarketValue market liquidity := by
  unfold cappedMarketValue
  rw [le_min_iff, ← mul_div_assoc]
  exact ⟨fun h => ⟨h.borrowed, h.closeFactor, h.marketCap⟩, fun h => ⟨h.1, h.2.1, h.2.2⟩⟩

/-- A cast exponent is never larger than the decimals it stands for. -/
theorem toI32_le (n : Nat) : toI32 n ≤ n := by
  unfold toI32
  split <;> omega

/-- The tightest limit in native units, before the cast. -/
def nativeLimit : ℚ :=
  min (cappedMarketValue market liquidity / sfToRat debtReserve.marketPriceSf *
    10 ^ toI32 debtReserve.mintDecimals) (sfToRat liquidity.borrowedAmount)

theorem nativeLimit_nonneg : 0 ≤ nativeLimit market debtReserve liquidity := by
  have hcapped := cappedMarketValue_nonneg market liquidity
  have hprice := sfToRat_nonneg debtReserve.marketPriceSf
  have hscale : (0 : ℚ) ≤ 10 ^ toI32 debtReserve.mintDecimals := zpow_nonneg (by norm_num) _
  refine le_min ?_ (sfToRat_nonneg liquidity.borrowedAmount)
  positivity

/-- The ceiling with nothing rounded but the result. -/
theorem maxRepayNativeAmount_exact : maxRepayNativeAmount .exact market debtReserve liquidity =
    if sfToRat debtReserve.marketPriceSf ≤ 0 then 0
    else toU64 (max (nativeLimit market debtReserve liquidity) 0) := rfl

theorem maxRepayNativeAmount_eq (hprice : 0 < sfToRat debtReserve.marketPriceSf) :
    maxRepayNativeAmount .exact market debtReserve liquidity =
      toU64 (nativeLimit market debtReserve liquidity) := by
  rw [maxRepayNativeAmount_exact, if_neg (not_le.mpr hprice),
    max_eq_left (nativeLimit_nonneg _ _ _)]

variable {market debtReserve liquidity}

/-- In native units the limit in USD is `capped / price * 10 ^ decimals`. -/
theorem valueOf_le_iff (hprice : 0 < sfToRat debtReserve.marketPriceSf) (n : Nat) (limit : ℚ) :
    debtReserve.valueOf n ≤ limit ↔
      (n : ℚ) ≤ limit / sfToRat debtReserve.marketPriceSf * 10 ^ debtReserve.mintDecimals := by
  have hscale : (0 : ℚ) < 10 ^ debtReserve.mintDecimals := by positivity
  unfold ReserveSnapshot.valueOf
  rw [div_le_iff₀ hscale, ← le_div_iff₀ hprice, mul_div_right_comm]

/-- The ceiling respects the limits, whatever the price and the decimals. -/
theorem repayWithin_maxRepayNativeAmount (market : LendingMarketSnapshot)
    (debtReserve : ReserveSnapshot) (liquidity : Klend.ObligationLiquidity) :
    RepayWithin market debtReserve liquidity
      (maxRepayNativeAmount .exact market debtReserve liquidity) := by
  have hcapped := cappedMarketValue_nonneg market liquidity
  have hborrowed := sfToRat_nonneg liquidity.borrowedAmount
  rw [repayWithin_iff]
  rcases (sfToRat_nonneg debtReserve.marketPriceSf).eq_or_lt with hprice | hprice
  · have hzero : maxRepayNativeAmount .exact market debtReserve liquidity = 0 := by
      rw [maxRepayNativeAmount_exact, if_pos hprice.symm.le]
    rw [hzero, ReserveSnapshot.valueOf, Nat.cast_zero, zero_mul, zero_div]
    exact ⟨hborrowed, hcapped⟩
  · rw [maxRepayNativeAmount_eq _ _ _ hprice, valueOf_le_iff hprice]
    have hscale : (10 : ℚ) ^ toI32 debtReserve.mintDecimals ≤ 10 ^ debtReserve.mintDecimals := by
      rw [← zpow_natCast]
      exact zpow_le_zpow_right₀ (by norm_num) (toI32_le _)
    have hunits : 0 ≤ cappedMarketValue market liquidity / sfToRat debtReserve.marketPriceSf := by
      positivity
    have hle := cast_toU64_le (nativeLimit_nonneg market debtReserve liquidity)
    exact ⟨hle.trans (min_le_right _ _),
      (hle.trans (min_le_left _ _)).trans (mul_le_mul_of_nonneg_left hscale hunits)⟩

/-- No larger `u64` respects the limits. -/
theorem le_maxRepayNativeAmount (hprice : 0 < sfToRat debtReserve.marketPriceSf)
    (hdecimals : debtReserve.mintDecimals < 2 ^ 31) {n : Nat} (hn : n ≤ u64Max)
    (h : RepayWithin market debtReserve liquidity n) :
    n ≤ maxRepayNativeAmount .exact market debtReserve liquidity := by
  obtain ⟨hborrowed, hvalue⟩ := (repayWithin_iff market debtReserve liquidity n).mp h
  have hexponent : toI32 debtReserve.mintDecimals = debtReserve.mintDecimals := if_pos hdecimals
  rw [maxRepayNativeAmount_eq _ _ _ hprice, nativeLimit, hexponent, zpow_natCast]
  exact le_toU64 hn (le_min ((valueOf_le_iff hprice n _).mp hvalue) hborrowed)

end

/-! ## What the adapter emits -/

namespace KaminoAdapter

/-- A candidate carries the ceiling of what its obligation resolved to. -/
theorem closeFactorMaxRepay_of_handleObligation {klend : Klend.Interface} {self : KaminoAdapter}
    {pubkey : Pubkey} {data : List UInt8} {slot : Nat} {candidate : BreachCandidate ℚ}
    (hexact : klend.f64 = .exact)
    (h : (self.handleObligation klend pubkey data slot).2 = some candidate) :
    ∃ obligation resolved, klend.obligation data = some obligation ∧
      self.resolve obligation = some resolved ∧
      candidate.closeFactorMaxRepay =
        maxRepayNativeAmount .exact resolved.lendingMarket resolved.debtReserve
          resolved.liquidity := by
  rw [handleObligation_eq] at h
  cases hdata : klend.obligation data with
  | none => simp [hdata] at h
  | some obligation =>
    simp only [hdata] at h
    split_ifs at h with hliquidatable
    cases hresolve : self.resolve obligation with
    | none => simp [hresolve] at h
    | some resolved =>
      simp only [hresolve, Option.some.injEq] at h
      refine ⟨obligation, resolved, rfl, hresolve, ?_⟩
      rw [← h, breachOf, hexact]

/-- An emitted candidate respects the limits of the snapshots it was built from. -/
theorem repayWithin_of_onAccountUpdate {klend : Klend.Interface} {self : KaminoAdapter}
    {update : AccountUpdate} {candidate : BreachCandidate ℚ} (hexact : klend.f64 = .exact)
    (h : (self.onAccountUpdate klend update).2 = some candidate) :
    ∃ obligation resolved, klend.obligation update.data = some obligation ∧
      self.resolve obligation = some resolved ∧
      RepayWithin resolved.lendingMarket resolved.debtReserve resolved.liquidity
        candidate.closeFactorMaxRepay := by
  have hkind := (of_onAccountUpdate_some h).1
  rw [onAccountUpdate_eq] at h
  simp only [hkind] at h
  obtain ⟨obligation, resolved, hdata, hresolve, hrepay⟩ :=
    closeFactorMaxRepay_of_handleObligation hexact h
  rw [resolve_seen] at hresolve
  refine ⟨obligation, resolved, hdata, hresolve, ?_⟩
  rw [hrepay]
  exact repayWithin_maxRepayNativeAmount _ _ _

/-- **The repay ceiling is sound and tight.**  In exact arithmetic and at a positive
price it is the largest `u64` that is within the borrowed amount, the close
factor of the market value and the market's ceiling; and no candidate the
adapter emits exceeds one of the three. -/
theorem repay_ceiling_greatest (klend : Klend.Interface) (hexact : klend.f64 = .exact) :
    (∀ (market : LendingMarketSnapshot) (debtReserve : ReserveSnapshot)
        (liquidity : Klend.ObligationLiquidity),
      0 < sfToRat debtReserve.marketPriceSf → debtReserve.mintDecimals < 2 ^ 31 →
      IsGreatest {n : Nat | n ≤ u64Max ∧ RepayWithin market debtReserve liquidity n}
        (maxRepayNativeAmount .exact market debtReserve liquidity)) ∧
    (∀ (self : KaminoAdapter) (update : AccountUpdate) (candidate : BreachCandidate ℚ),
      (self.onAccountUpdate klend update).2 = some candidate →
      ∃ obligation resolved, klend.obligation update.data = some obligation ∧
        self.resolve obligation = some resolved ∧
        RepayWithin resolved.lendingMarket resolved.debtReserve resolved.liquidity
          candidate.closeFactorMaxRepay) := by
  refine ⟨fun market debtReserve liquidity hprice hdecimals => ⟨⟨?_, ?_⟩, ?_⟩, ?_⟩
  · rw [maxRepayNativeAmount_eq _ _ _ hprice]
    exact toU64_le _
  · exact repayWithin_maxRepayNativeAmount market debtReserve liquidity
  · rintro n ⟨hn, hwithin⟩
    exact le_maxRepayNativeAmount hprice hdecimals hn hwithin
  · intro self update candidate h
    exact repayWithin_of_onAccountUpdate hexact h

/-- A position of 100 USD at 1 USD a token: the market's ceiling of 15 USD is
tighter than a close factor of 20%, and the sample feed emits 20 tokens. -/
theorem repay_ceiling_greatest_capped :
    let market : LendingMarketSnapshot := ⟨20, 15, 0⟩
    let debtReserve : ReserveSnapshot := ⟨Bytes32.fill 2, 2 ^ 60, 6, 0, 0, 0⟩
    let liquidity : Klend.ObligationLiquidity :=
      ⟨true, 100 * 2 ^ 60, Bytes32.fill 1, 100 * 10 ^ 6 * 2 ^ 60⟩
    let self := after Klend.sample [Klend.sampleMarket 7, Klend.sampleReserve 1 5]
    let update := Klend.sampleObligation (Bytes32.fill 5) 9
    maxRepayNativeAmount .exact market debtReserve liquidity = 15000000 ∧
      IsGreatest {n : Nat | n ≤ u64Max ∧ RepayWithin market debtReserve liquidity n}
        (maxRepayNativeAmount .exact market debtReserve liquidity) ∧
      ∃ candidate, (self.onAccountUpdate Klend.sample update).2 = some candidate ∧
        candidate.closeFactorMaxRepay = 20000000 ∧
        ∃ obligation resolved, Klend.sample.obligation update.data = some obligation ∧
          self.resolve obligation = some resolved ∧
          RepayWithin resolved.lendingMarket resolved.debtReserve resolved.liquidity
            candidate.closeFactorMaxRepay := by
  intro market debtReserve liquidity self update
  refine ⟨by decide +kernel, ?_, ?_⟩
  · exact (repay_ceiling_greatest Klend.sample rfl).1 market debtReserve liquidity
      (by decide +kernel) (by decide)
  · cases hcandidate : (self.onAccountUpdate Klend.sample update).2 with
    | none => exact absurd hcandidate (by decide +kernel)
    | some candidate =>
      have hrepay : ((self.onAccountUpdate Klend.sample update).2.map
          BreachCandidate.closeFactorMaxRepay) = some 20000000 := by decide +kernel
      rw [hcandidate] at hrepay
      exact ⟨candidate, rfl, Option.some.inj hrepay,
        (repay_ceiling_greatest Klend.sample rfl).2 self update candidate hcandidate⟩

end KaminoAdapter

end Gyrfalcon
