import Gyrfalcon.Klend
import Gyrfalcon.Lib.Extremum
import Gyrfalcon.Lib.LastWrite
import Gyrfalcon.Lib.Machine
import Mathlib.Algebra.Order.Field.Basic

/-!
# Kamino health adapter (`health/src/adapters/kamino.rs`)

The adapter keeps one snapshot per reserve and lending market it has seen, and
turns an obligation update into a breach candidate against those snapshots.
`f64` arithmetic is that of the interface.
-/

namespace Gyrfalcon

open LastWrite (HashMap)
open Rounding (F64)

/-! ## State -/

structure ReserveSnapshot where
  liquidityMint : Pubkey
  marketPriceSf : Nat
  mintDecimals : Nat
  slot : Nat
  marketPriceLastUpdatedTs : Nat
  maxAgePriceSeconds : Nat
  deriving DecidableEq, Repr

structure LendingMarketSnapshot where
  liquidationMaxDebtCloseFactorPct : Nat
  maxLiquidatableDebtMarketValueAtOnce : Nat
  slot : Nat
  deriving DecidableEq, Repr

structure ObligationSnapshot where
  slot : Nat
  closeFactorMaxRepay : Nat
  deriving DecidableEq, Repr

structure KaminoAdapter where
  reserves : HashMap Pubkey ReserveSnapshot
  lendingMarkets : HashMap Pubkey LendingMarketSnapshot
  knownObligations : HashMap Pubkey ObligationSnapshot
  lastSyncedSlot : Nat
  currentSlot : Nat

/-- What an obligation refers to, once all of it has been seen. -/
structure Resolved where
  lendingMarket : LendingMarketSnapshot
  liquidity : Klend.ObligationLiquidity
  debtReserve : ReserveSnapshot
  collateralReserve : ReserveSnapshot
  deriving DecidableEq, Repr

/-! ## Repay ceiling -/

/-- `as i32` on a `u32`. -/
def toI32 (n : Nat) : Int := if n < 2 ^ 31 then n else n - 2 ^ 32

def maxRepayNativeAmount (f64 : F64) (market : LendingMarketSnapshot)
    (debtReserve : ReserveSnapshot) (liquidity : Klend.ObligationLiquidity) : Nat :=
  let debtMv := sfToF64 f64 liquidity.marketValue
  let closeFactorRate := f64.div market.liquidationMaxDebtCloseFactorPct 100
  let byCloseFactorMv := f64.mul debtMv closeFactorRate
  let marketCapMv := f64.round market.maxLiquidatableDebtMarketValueAtOnce
  let cappedMv := min byCloseFactorMv marketCapMv
  let price := sfToF64 f64 debtReserve.marketPriceSf
  if price ≤ 0 then 0
  else
    let native := f64.mul (f64.div cappedMv price) (f64.powi 10 (toI32 debtReserve.mintDecimals))
    let borrowedNative := sfToF64 f64 liquidity.borrowedAmount
    toU64 (max (min native borrowedNative) 0)

/-! ## Updates -/

namespace KaminoAdapter

def new : KaminoAdapter := ⟨∅, ∅, ∅, 0, 0⟩

variable (klend : Klend.Interface)

def reserveSnapshot (reserve : Klend.Reserve) (slot : Nat) : ReserveSnapshot where
  liquidityMint := reserve.mintPubkey
  marketPriceSf := reserve.marketPrice
  mintDecimals := reserve.mintDecimals % 2 ^ 32
  slot := slot
  marketPriceLastUpdatedTs := reserve.marketPriceLastUpdatedTs
  maxAgePriceSeconds := reserve.maxAgePriceSeconds

def handleReserve (self : KaminoAdapter) (pubkey : Pubkey) (data : List UInt8) (slot : Nat) :
    KaminoAdapter :=
  match klend.reserve data with
  | some reserve =>
    { self with reserves := self.reserves.insert pubkey (reserveSnapshot reserve slot) }
  | none => self

/-- Whether the reserve's oracle price is older than its own ceiling. -/
def reservePriceIsStale (self : KaminoAdapter) (reserve : Pubkey) (currentUnixTs : Nat) :
    Option Bool :=
  (self.reserves.lookup reserve).map fun snapshot =>
    snapshot.maxAgePriceSeconds < currentUnixTs - snapshot.marketPriceLastUpdatedTs

def handleLendingMarket (self : KaminoAdapter) (pubkey : Pubkey) (data : List UInt8)
    (slot : Nat) : KaminoAdapter :=
  match klend.lendingMarket data with
  | some market =>
    { self with
      lendingMarkets := self.lendingMarkets.insert pubkey
        ⟨market.liquidationMaxDebtCloseFactorPct, market.maxLiquidatableDebtMarketValueAtOnce,
          slot⟩ }
  | none => self

/-- The chain of `?` lookups of `handle_obligation`: market, largest active
borrow with its reserve, largest active deposit with its reserve. -/
def resolve (self : KaminoAdapter) (obligation : Klend.Obligation) : Option Resolved := do
  let lendingMarket ← self.lendingMarkets.lookup obligation.lendingMarket
  let liquidity ← Extremum.maxBy (fun a b => compare a.marketValue b.marketValue)
    (obligation.borrows.filter (·.isActive))
  let debtReserve ← self.reserves.lookup liquidity.borrowReserve
  let collateral ← Extremum.maxBy (fun a b => compare a.marketValue b.marketValue)
    (obligation.deposits.filter (·.isActive))
  let collateralReserve ← self.reserves.lookup collateral.depositReserve
  return ⟨lendingMarket, liquidity, debtReserve, collateralReserve⟩

def recordObligation (self : KaminoAdapter) (pubkey : Pubkey) (slot closeFactorMaxRepay : Nat) :
    KaminoAdapter :=
  { self with knownObligations := self.knownObligations.insert pubkey ⟨slot, closeFactorMaxRepay⟩ }

def handleObligation (self : KaminoAdapter) (pubkey : Pubkey) (data : List UInt8) (slot : Nat) :
    KaminoAdapter × Option (BreachCandidate ℚ) :=
  match klend.obligation data with
  | none => (self, none)
  | some obligation =>
    let debt := sfToF64 klend.f64 obligation.borrowFactorAdjustedDebtValue
    let unhealthy := sfToF64 klend.f64 obligation.unhealthyBorrowValue
    if debt ≤ 0 then (self.recordObligation pubkey slot 0, none)
    else if unhealthy ≤ 0 then (self.recordObligation pubkey slot 0, none)
    else
      let healthFactor := klend.f64.div unhealthy debt
      if 1 ≤ healthFactor then (self.recordObligation pubkey slot 0, none)
      else
        match self.resolve obligation with
        | none => (self, none)
        | some resolved =>
          let closeFactorMaxRepay :=
            maxRepayNativeAmount klend.f64 resolved.lendingMarket resolved.debtReserve
              resolved.liquidity
          (self.recordObligation pubkey slot closeFactorMaxRepay,
            some {
              protocol := .kamino
              positionId := pubkey
              collateralMint := resolved.collateralReserve.liquidityMint
              debtMint := resolved.debtReserve.liquidityMint
              healthFactor
              closeFactorMaxRepay
              slot })

/-- `HealthAdapter::on_account_update`. -/
def onAccountUpdate (self : KaminoAdapter) (update : AccountUpdate) :
    KaminoAdapter × Option (BreachCandidate ℚ) :=
  if update.owner ≠ kaminoProgramId then (self, none)
  else
    let self := { self with currentSlot := max self.currentSlot update.slot }
    if update.data.length < 8 then (self, none)
    else
      let discriminator := update.data.take 8
      if discriminator = klend.reserveDiscriminator then
        ({ self.handleReserve klend update.pubkey update.data update.slot with
            lastSyncedSlot := update.slot }, none)
      else if discriminator = klend.lendingMarketDiscriminator then
        ({ self.handleLendingMarket klend update.pubkey update.data update.slot with
            lastSyncedSlot := update.slot }, none)
      else if discriminator = klend.obligationDiscriminator then
        ({ self with lastSyncedSlot := update.slot }).handleObligation klend update.pubkey
          update.data update.slot
      else (self, none)

def closeFactor (self : KaminoAdapter) (positionId : Pubkey) : Nat :=
  ((self.knownObligations.lookup positionId).map (·.closeFactorMaxRepay)).getD 0

def positionCount (self : KaminoAdapter) : Nat := self.knownObligations.keys.length

def syncLagSlots (self : KaminoAdapter) : Nat := self.currentSlot - self.lastSyncedSlot

/-! ## What an update does -/

inductive AccountKind where
  | reserve
  | lendingMarket
  | obligation
  deriving DecidableEq, Repr

/-- The branch of `onAccountUpdate` an update takes. -/
def kindOf (update : AccountUpdate) : Option AccountKind :=
  if update.owner ≠ kaminoProgramId ∨ update.data.length < 8 then none
  else if update.data.take 8 = klend.reserveDiscriminator then some .reserve
  else if update.data.take 8 = klend.lendingMarketDiscriminator then some .lendingMarket
  else if update.data.take 8 = klend.obligationDiscriminator then some .obligation
  else none

/-- The snapshot a reserve update writes, if it decodes. -/
def reserveWrite (update : AccountUpdate) : Option (Pubkey × ReserveSnapshot) :=
  if kindOf klend update = some .reserve then
    (klend.reserve update.data).map fun reserve =>
      (update.pubkey, reserveSnapshot reserve update.slot)
  else none

/-- The snapshot a lending-market update writes, if it decodes. -/
def marketWrite (update : AccountUpdate) : Option (Pubkey × LendingMarketSnapshot) :=
  if kindOf klend update = some .lendingMarket then
    (klend.lendingMarket update.data).map fun market =>
      (update.pubkey, ⟨market.liquidationMaxDebtCloseFactorPct,
        market.maxLiquidatableDebtMarketValueAtOnce, update.slot⟩)
  else none

/-- The slot bookkeeping that comes before the discriminator is read. -/
def seen (self : KaminoAdapter) (update : AccountUpdate) : KaminoAdapter :=
  if update.owner = kaminoProgramId then
    { self with currentSlot := max self.currentSlot update.slot }
  else self

/-- Everything `onAccountUpdate` can do. -/
theorem onAccountUpdate_eq (self : KaminoAdapter) (update : AccountUpdate) :
    self.onAccountUpdate klend update =
      match kindOf klend update with
      | none => (self.seen update, none)
      | some .reserve =>
        ({ (self.seen update).handleReserve klend update.pubkey update.data update.slot with
            lastSyncedSlot := update.slot }, none)
      | some .lendingMarket =>
        ({ (self.seen update).handleLendingMarket klend update.pubkey update.data update.slot with
            lastSyncedSlot := update.slot }, none)
      | some .obligation =>
        ({ self.seen update with lastSyncedSlot := update.slot }).handleObligation klend
          update.pubkey update.data update.slot := by
  unfold onAccountUpdate kindOf seen
  by_cases howner : update.owner = kaminoProgramId
  · by_cases hlen : update.data.length < 8
    · simp [howner, hlen]
    · simp only [howner, hlen, ne_eq, not_true_eq_false, or_self, ↓reduceIte]
      by_cases hreserve : update.data.take 8 = klend.reserveDiscriminator
      · simp [hreserve]
      · rw [if_neg hreserve, if_neg hreserve]
        by_cases hmarket : update.data.take 8 = klend.lendingMarketDiscriminator
        · rw [if_pos hmarket, if_pos hmarket]
        · rw [if_neg hmarket, if_neg hmarket]
          by_cases hobligation : update.data.take 8 = klend.obligationDiscriminator
          · rw [if_pos hobligation, if_pos hobligation]
          · rw [if_neg hobligation, if_neg hobligation]
  · simp [howner]

/-- A reserve update writes to the reserves alone. -/
theorem handleReserve_eq (self : KaminoAdapter) (pubkey : Pubkey) (data : List UInt8)
    (slot : Nat) :
    self.handleReserve klend pubkey data slot =
      { self with
        reserves := (klend.reserve data).elim self.reserves fun reserve =>
          self.reserves.insert pubkey (reserveSnapshot reserve slot) } := by
  unfold handleReserve
  cases klend.reserve data <;> rfl

/-- A lending-market update writes to the lending markets alone. -/
theorem handleLendingMarket_eq (self : KaminoAdapter) (pubkey : Pubkey) (data : List UInt8)
    (slot : Nat) :
    self.handleLendingMarket klend pubkey data slot =
      { self with
        lendingMarkets := (klend.lendingMarket data).elim self.lendingMarkets fun market =>
          self.lendingMarkets.insert pubkey
            ⟨market.liquidationMaxDebtCloseFactorPct,
              market.maxLiquidatableDebtMarketValueAtOnce, slot⟩ } := by
  unfold handleLendingMarket
  cases klend.lendingMarket data <;> rfl

/-- Past the health checks: debt and collateral, and a health factor below one. -/
def liquidatable (obligation : Klend.Obligation) : Bool :=
  0 < sfToF64 klend.f64 obligation.borrowFactorAdjustedDebtValue ∧
    0 < sfToF64 klend.f64 obligation.unhealthyBorrowValue ∧
    klend.f64.div (sfToF64 klend.f64 obligation.unhealthyBorrowValue)
      (sfToF64 klend.f64 obligation.borrowFactorAdjustedDebtValue) < 1

/-- The candidate of a liquidatable obligation, once all it refers to was seen. -/
def breachOf (pubkey : Pubkey) (slot : Nat) (obligation : Klend.Obligation)
    (resolved : Resolved) : BreachCandidate ℚ where
  protocol := .kamino
  positionId := pubkey
  collateralMint := resolved.collateralReserve.liquidityMint
  debtMint := resolved.debtReserve.liquidityMint
  healthFactor := klend.f64.div (sfToF64 klend.f64 obligation.unhealthyBorrowValue)
    (sfToF64 klend.f64 obligation.borrowFactorAdjustedDebtValue)
  closeFactorMaxRepay := maxRepayNativeAmount klend.f64 resolved.lendingMarket
    resolved.debtReserve resolved.liquidity
  slot := slot

/-- The three health checks of `handle_obligation` leave through the same exit. -/
theorem handleObligation_eq (self : KaminoAdapter) (pubkey : Pubkey) (data : List UInt8)
    (slot : Nat) :
    self.handleObligation klend pubkey data slot =
      match klend.obligation data with
      | none => (self, none)
      | some obligation =>
        if liquidatable klend obligation then
          match self.resolve obligation with
          | none => (self, none)
          | some resolved =>
            (self.recordObligation pubkey slot
                (breachOf klend pubkey slot obligation resolved).closeFactorMaxRepay,
              some (breachOf klend pubkey slot obligation resolved))
        else (self.recordObligation pubkey slot 0, none) := by
  unfold handleObligation
  cases klend.obligation data with
  | none => rfl
  | some obligation =>
    by_cases hliquidatable : liquidatable klend obligation = true
    · obtain ⟨hdebt, hunhealthy, hhealth⟩ := of_decide_eq_true hliquidatable
      simp only [if_neg (not_le.mpr hdebt), if_neg (not_le.mpr hunhealthy),
        if_neg (not_le.mpr hhealth), hliquidatable, ↓reduceIte]
      rfl
    · simp only [hliquidatable, Bool.false_eq_true, ↓reduceIte]
      split_ifs with hdebt hunhealthy hhealth
      · rfl
      · rfl
      · rfl
      · exact absurd
          (decide_eq_true ⟨not_le.mp hdebt, not_le.mp hunhealthy, not_le.mp hhealth⟩)
          hliquidatable

/-- An obligation update never touches the snapshots or the slots. -/
theorem handleObligation_cases (self : KaminoAdapter) (pubkey : Pubkey) (data : List UInt8)
    (slot : Nat) :
    self.handleObligation klend pubkey data slot = (self, none) ∨
    (∃ repay, self.handleObligation klend pubkey data slot =
      (self.recordObligation pubkey slot repay, none)) ∨
    ∃ repay candidate, self.handleObligation klend pubkey data slot =
        (self.recordObligation pubkey slot repay, some candidate) ∧
      candidate.positionId = pubkey ∧ candidate.slot = slot ∧ candidate.healthFactor < 1 := by
  rw [handleObligation_eq]
  cases klend.obligation data with
  | none => exact Or.inl rfl
  | some obligation =>
    by_cases hliquidatable : liquidatable klend obligation = true
    · simp only [hliquidatable, ↓reduceIte]
      cases self.resolve obligation with
      | none => exact Or.inl rfl
      | some resolved =>
        exact Or.inr (Or.inr ⟨_, _, rfl, rfl, rfl, (of_decide_eq_true hliquidatable).2.2⟩)
    · simp only [hliquidatable, Bool.false_eq_true, ↓reduceIte]
      exact Or.inr (Or.inl ⟨0, rfl⟩)

variable {klend}

theorem handleObligation_reserves (self : KaminoAdapter) (pubkey : Pubkey) (data : List UInt8)
    (slot : Nat) : (self.handleObligation klend pubkey data slot).1.reserves = self.reserves := by
  obtain h | ⟨_, h⟩ | ⟨_, _, h, -⟩ := handleObligation_cases klend self pubkey data slot <;>
    rw [h] <;> rfl

theorem handleObligation_lendingMarkets (self : KaminoAdapter) (pubkey : Pubkey)
    (data : List UInt8) (slot : Nat) :
    (self.handleObligation klend pubkey data slot).1.lendingMarkets = self.lendingMarkets := by
  obtain h | ⟨_, h⟩ | ⟨_, _, h, -⟩ := handleObligation_cases klend self pubkey data slot <;>
    rw [h] <;> rfl

theorem handleObligation_slots (self : KaminoAdapter) (pubkey : Pubkey) (data : List UInt8)
    (slot : Nat) :
    (self.handleObligation klend pubkey data slot).1.currentSlot = self.currentSlot ∧
      (self.handleObligation klend pubkey data slot).1.lastSyncedSlot = self.lastSyncedSlot := by
  obtain h | ⟨_, h⟩ | ⟨_, _, h, -⟩ := handleObligation_cases klend self pubkey data slot <;>
    rw [h] <;> exact ⟨rfl, rfl⟩

variable (self : KaminoAdapter) (update : AccountUpdate)

theorem seen_reserves : (self.seen update).reserves = self.reserves := by
  unfold seen
  split <;> rfl

theorem seen_lendingMarkets : (self.seen update).lendingMarkets = self.lendingMarkets := by
  unfold seen
  split <;> rfl

/-- Reserve snapshots are written by `reserveWrite` alone. -/
theorem onAccountUpdate_reserves : (self.onAccountUpdate klend update).1.reserves =
    LastWrite.write (reserveWrite klend) self.reserves update := by
  rw [onAccountUpdate_eq]
  unfold LastWrite.write reserveWrite
  split
  · next h => simp [h, seen_reserves]
  · next h =>
    rw [handleReserve_eq]
    cases klend.reserve update.data <;> simp [h, seen_reserves]
  · next h => simp [h, handleLendingMarket_eq, seen_reserves]
  · next h => simp [h, handleObligation_reserves, seen_reserves]

/-- Lending-market snapshots are written by `marketWrite` alone. -/
theorem onAccountUpdate_lendingMarkets : (self.onAccountUpdate klend update).1.lendingMarkets =
    LastWrite.write (marketWrite klend) self.lendingMarkets update := by
  rw [onAccountUpdate_eq]
  unfold LastWrite.write marketWrite
  split
  · next h => simp [h, seen_lendingMarkets]
  · next h => simp [h, handleReserve_eq, seen_lendingMarkets]
  · next h =>
    rw [handleLendingMarket_eq]
    cases klend.lendingMarket update.data <;> simp [h, seen_lendingMarkets]
  · next h => simp [h, handleObligation_lendingMarkets, seen_lendingMarkets]

/-- The newest slot seen on a Kamino-owned account. -/
theorem onAccountUpdate_currentSlot : (self.onAccountUpdate klend update).1.currentSlot =
    if update.owner = kaminoProgramId then max self.currentSlot update.slot
    else self.currentSlot := by
  have hseen : (self.seen update).currentSlot =
      if update.owner = kaminoProgramId then max self.currentSlot update.slot
      else self.currentSlot := by
    unfold seen
    split <;> rfl
  rw [← hseen, onAccountUpdate_eq]
  split
  · rfl
  · rw [handleReserve_eq]
  · rw [handleLendingMarket_eq]
  · exact (handleObligation_slots _ _ _ _).1

variable {self update}

theorem owner_of_kindOf {kind : AccountKind} (h : kindOf klend update = some kind) :
    update.owner = kaminoProgramId := by
  unfold kindOf at h
  by_contra hne
  simp [hne] at h

/-- A candidate comes from an obligation update of the breaching position, and
that update is the last synced one. -/
theorem of_onAccountUpdate_some {candidate : BreachCandidate ℚ}
    (h : (self.onAccountUpdate klend update).2 = some candidate) :
    kindOf klend update = some .obligation ∧ candidate.positionId = update.pubkey ∧
      candidate.slot = update.slot ∧ candidate.healthFactor < 1 ∧
      (self.onAccountUpdate klend update).1.lastSyncedSlot = update.slot := by
  rw [onAccountUpdate_eq] at h ⊢
  cases hkind : kindOf klend update with
  | none => simp [hkind] at h
  | some kind =>
    cases kind with
    | reserve => simp [hkind] at h
    | lendingMarket => simp [hkind] at h
    | obligation =>
      simp only [hkind] at h ⊢
      refine ⟨trivial, ?_⟩
      obtain h' | ⟨_, h'⟩ | ⟨_, c, h', hid, hslot, hhealth⟩ :=
        handleObligation_cases klend { self.seen update with lastSyncedSlot := update.slot }
          update.pubkey update.data update.slot
      · rw [h'] at h; cases h
      · rw [h'] at h; cases h
      · rw [h'] at h ⊢
        cases h
        exact ⟨hid, hslot, hhealth, rfl⟩

/-! ## Runs -/

/-- The adapter after a sequence of updates, from `new()`. -/
def after (klend : Klend.Interface) (updates : List AccountUpdate) : KaminoAdapter :=
  Machine.final (onAccountUpdate klend) new updates

variable (klend)

theorem after_reserves (updates : List AccountUpdate) : (after klend updates).reserves =
    updates.foldl (LastWrite.write (reserveWrite klend)) ∅ :=
  Machine.final_map onAccountUpdate_reserves updates

theorem after_lendingMarkets (updates : List AccountUpdate) :
    (after klend updates).lendingMarkets =
      updates.foldl (LastWrite.write (marketWrite klend)) ∅ :=
  Machine.final_map onAccountUpdate_lendingMarkets updates

theorem resolve_seen (self : KaminoAdapter) (update : AccountUpdate) (slot : Nat)
    (obligation : Klend.Obligation) :
    ({ self.seen update with lastSyncedSlot := slot }).resolve obligation =
      self.resolve obligation := by
  simp only [resolve, seen_reserves, seen_lendingMarkets]

/-- A candidate depends on the adapter only through what its obligation
resolves to. -/
theorem onAccountUpdate_snd_congr_resolve {a b : KaminoAdapter} {update : AccountUpdate}
    (h : ∀ obligation, klend.obligation update.data = some obligation →
      a.resolve obligation = b.resolve obligation) :
    (a.onAccountUpdate klend update).2 = (b.onAccountUpdate klend update).2 := by
  rw [onAccountUpdate_eq, onAccountUpdate_eq]
  split
  · rfl
  · rfl
  · rfl
  · rw [handleObligation_eq, handleObligation_eq]
    cases hdata : klend.obligation update.data with
    | none => rfl
    | some obligation =>
      simp only [resolve_seen, h obligation hdata]
      split
      · split <;> rfl
      · rfl

/-- A candidate depends on the two snapshot maps only through their lookups. -/
theorem onAccountUpdate_snd_congr {a b : KaminoAdapter}
    (hreserves : ∀ k, a.reserves.lookup k = b.reserves.lookup k)
    (hmarkets : ∀ k, a.lendingMarkets.lookup k = b.lendingMarkets.lookup k)
    (update : AccountUpdate) :
    (a.onAccountUpdate klend update).2 = (b.onAccountUpdate klend update).2 := by
  refine onAccountUpdate_snd_congr_resolve klend fun obligation _ => ?_
  simp only [resolve, hreserves, hmarkets]

/-- An obligation's own key is only a label on its candidate. -/
theorem onAccountUpdate_snd_relabel (self : KaminoAdapter) (update : AccountUpdate)
    (pubkey : Pubkey) :
    (self.onAccountUpdate klend { update with pubkey := pubkey }).2 =
      (self.onAccountUpdate klend update).2.map fun candidate =>
        { candidate with positionId := pubkey } := by
  have hkind : kindOf klend { update with pubkey := pubkey } = kindOf klend update := rfl
  rw [onAccountUpdate_eq, onAccountUpdate_eq, hkind]
  split
  · rfl
  · rfl
  · rfl
  · rw [handleObligation_eq, handleObligation_eq]
    cases klend.obligation update.data with
    | none => rfl
    | some obligation =>
      simp only [resolve_seen]
      split
      · split <;> rfl
      · rfl

end KaminoAdapter

end Gyrfalcon
