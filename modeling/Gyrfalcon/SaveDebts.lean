import Gyrfalcon.SaveObligation
import Mathlib.Algebra.Order.BigOperators.Group.List
import Mathlib.Tactic.FieldSimp

/-!
# A Solend reserve and the debts to it

The reserve keeps one number for everything it has lent and compounds it; each
obligation keeps its own debt and catches up with the cumulative rate whenever
it is refreshed.  Both round down, each in its own steps, so the two books drift
apart: what the obligations owe can exceed what the reserve believes to have
lent.  `debts_backed` bounds the excess over every interleaving, by one unit of
`10^-18` for each accrual, at the growth since.  It is what `repay` caps the
settled amount for.

A transaction is a few method calls, and is undone when one of them fails.
-/

namespace Gyrfalcon

open FixedPoint Fallible

namespace Solend

/-- A reserve and the borrows from it, in whatever obligations they are. -/
structure Loans where
  reserve : Reserve
  borrows : List ObligationLiquidity

namespace Loans

inductive Move where
  | depositLiquidity (liquidityAmount : UInt64)
  | redeemCollateral (collateralAmount : UInt64)
  | donate (donateAmount : UInt64)
  | redeemFees (withdrawAmount : UInt64)
  /-- Refresh the reserve. -/
  | accrueInterest (currentSlot : UInt64)
  /-- A borrow that `find_or_add_liquidity_to_borrows` adds. -/
  | add (borrowReserve : Pubkey)
  /-- Refresh a borrow. -/
  | catchUp (index : Nat)
  | borrow (index : Nat) (borrowAmount : Decimal)
  /-- Repayments and liquidations, whatever tokens they bring in. -/
  | repay (index : Nat) (repayAmount : UInt64) (settleAmount : Decimal)
  | forgiveDebt (index : Nat) (liquidityAmount : Decimal)

/-- A method of the reserve alone. -/
def onReserve {α : Type} (self : Loans) (x : Fallible LendingError Reserve α) :
    Option (Except LendingError Loans) :=
  some ((fun reserve => { self with reserve }) <$> x.commit self.reserve)

/-- A method of the reserve and one of the list of borrows. -/
def onBoth {α : Type} (self : Loans) (x : Fallible LendingError Reserve α)
    (change : Option (Except LendingError (List ObligationLiquidity))) :
    Option (Except LendingError Loans) :=
  match x.commit self.reserve with
  | .error e => some (.error e)
  | .ok reserve => change.map (Except.map fun borrows => { reserve, borrows })

def transact (self : Loans) : Move → Option (Except LendingError Loans)
  | .depositLiquidity liquidityAmount => self.onReserve (Reserve.depositLiquidity liquidityAmount)
  | .redeemCollateral collateralAmount => self.onReserve (Reserve.redeemCollateral collateralAmount)
  | .donate donateAmount =>
    self.onReserve (Reserve.onLiquidity (ReserveLiquidity.donate donateAmount))
  | .redeemFees withdrawAmount =>
    self.onReserve (Reserve.onLiquidity (ReserveLiquidity.redeemFees withdrawAmount))
  | .accrueInterest currentSlot =>
    self.onReserve do
      Reserve.accrueInterest currentSlot
      modify fun reserve =>
        { reserve with lastUpdate := reserve.lastUpdate.updateSlot currentSlot }
  | .add borrowReserve =>
    some (.ok { self with
      borrows := self.borrows ++
        [.new borrowReserve self.reserve.liquidity.cumulativeBorrowRateWads] })
  | .catchUp index =>
    (changeAt self.borrows index
      (·.accrueInterest self.reserve.liquidity.cumulativeBorrowRateWads)).map
      (Except.map fun borrows => { self with borrows })
  | .borrow index borrowAmount =>
    self.onBoth (Reserve.onLiquidity (ReserveLiquidity.borrow borrowAmount))
      (changeAt self.borrows index (·.borrow borrowAmount))
  | .repay index repayAmount settleAmount =>
    self.onBoth (Reserve.onLiquidity (ReserveLiquidity.repay repayAmount settleAmount))
      (settleAt self.borrows index (fun liquidity => settleAmount = liquidity.borrowedAmountWads)
        (·.repay settleAmount))
  | .forgiveDebt index liquidityAmount =>
    self.onBoth (Reserve.onLiquidity (ReserveLiquidity.forgiveDebt liquidityAmount))
      (settleAt self.borrows index
        (fun liquidity => liquidityAmount = liquidity.borrowedAmountWads)
        (·.repay liquidityAmount))

/-- One transaction, with a count of one for an accrual. -/
def step (self : Loans) (move : Move) : Loans × Nat :=
  match self.transact move with
  | some (.ok after) => (after, match move with
    | .accrueInterest _ => 1
    | _ => 0)
  | _ => (self, 0)

/-- A debt is taken on only at the current rate: the borrow has caught up. -/
def Fresh (self : Loans) : Move → Prop
  | .borrow index _ => ∀ liquidity, self.borrows[index]? = some liquidity →
    liquidity.cumulativeBorrowRateWads = self.reserve.liquidity.cumulativeBorrowRateWads
  | _ => True

theorem fresh_borrow_iff {self : Loans} {index : Nat} {amount : Decimal} :
    self.Fresh (.borrow index amount) ↔ (self.borrows[index]?.all fun liquidity =>
      liquidity.cumulativeBorrowRateWads = self.reserve.liquidity.cumulativeBorrowRateWads) := by
  cases h : self.borrows[index]? with
  | none => simp [Fresh, h]
  | some liquidity => simp [Fresh, h]

instance (self : Loans) (move : Move) : Decidable (self.Fresh move) :=
  match move with
  | .borrow _ _ => decidable_of_iff _ fresh_borrow_iff.symm
  | .depositLiquidity _ | .redeemCollateral _ | .donate _ | .redeemFees _ | .accrueInterest _
  | .add _ | .catchUp _ | .repay _ _ _ | .forgiveDebt _ _ => .isTrue trivial

/-! ## The two books -/

/-- What the reserve has lent, and the cumulative rate. -/
def lent (reserve : Reserve) : Decimal × Decimal :=
  (reserve.liquidity.borrowedAmountWads, reserve.liquidity.cumulativeBorrowRateWads)

/-- All that is owed. -/
def owed (borrows : List ObligationLiquidity) : Nat :=
  (borrows.map fun liquidity => liquidity.borrowedAmountWads.scaledVal).sum

theorem owed_cons (liquidity : ObligationLiquidity) (borrows : List ObligationLiquidity) :
    owed (liquidity :: borrows) = liquidity.borrowedAmountWads.scaledVal + owed borrows := by
  simp [owed]

/-- A debt in units of the cumulative rate. -/
def share (liquidity : ObligationLiquidity) : ℚ :=
  liquidity.borrowedAmountWads.scaledVal / liquidity.cumulativeBorrowRateWads.scaledVal

/-- All that is owed, were every debt to catch up with the current cumulative rate. -/
def owedNow (loans : Loans) : ℚ :=
  (loans.borrows.map share).sum * loans.reserve.liquidity.cumulativeBorrowRateWads.scaledVal

/-- The rates are those of one reserve, and after `n` accruals the debts exceed what
the reserve has lent by no more than `n` units. -/
structure Backed (n : Nat) (loans : Loans) : Prop where
  one_le : wad ≤ loans.reserve.liquidity.cumulativeBorrowRateWads.scaledVal
  rates : ∀ liquidity ∈ loans.borrows, 0 < liquidity.cumulativeBorrowRateWads.scaledVal ∧
    liquidity.cumulativeBorrowRateWads.scaledVal ≤
      loans.reserve.liquidity.cumulativeBorrowRateWads.scaledVal
  shares : (loans.borrows.map share).sum ≤
    (loans.reserve.liquidity.borrowedAmountWads.scaledVal : ℚ) /
      loans.reserve.liquidity.cumulativeBorrowRateWads.scaledVal + n / wad

section Lent

variable {liquidity after : ReserveLiquidity} {amount : Decimal} {tokens : UInt64}

/-- What a liquidity has lent, and its cumulative rate. -/
def lentBy (liquidity : ReserveLiquidity) : Decimal × Decimal :=
  (liquidity.borrowedAmountWads, liquidity.cumulativeBorrowRateWads)

theorem keeps_onLiquidity {α : Type} {x : Fallible LendingError ReserveLiquidity α}
    (h : Keeps lentBy x) : Keeps lent (Reserve.onLiquidity x) :=
  Keeps.zoom (fun _ _ ht => ht) h

theorem keeps_onCollateral {α : Type} (x : Fallible LendingError ReserveCollateral α) :
    Keeps lent (Reserve.onCollateral x) := fun _ => rfl

theorem keeps_deposit : Keeps lentBy (ReserveLiquidity.deposit tokens) :=
  .bind .get fun _ => .bind (.lift _) fun _ => .modify fun _ => rfl

theorem keeps_withdraw : Keeps lentBy (ReserveLiquidity.withdraw tokens) :=
  .bind .get fun _ => .bind (.lift _) fun _ => .bind .get fun _ => .bind (.lift _) fun _ =>
    .modify fun _ => rfl

theorem keeps_redeemFees : Keeps lentBy (ReserveLiquidity.redeemFees tokens) :=
  .bind .get fun _ => .bind (.lift _) fun _ => .bind (.modify fun _ => rfl) fun _ =>
    .bind .get fun _ => .bind (.lift _) fun _ => .modify fun _ => rfl

theorem keeps_depositLiquidity : Keeps lent (Reserve.depositLiquidity tokens) :=
  .bind .get fun _ => .bind (.lift _) fun _ => .bind (.lift _) fun _ =>
    .bind (keeps_onLiquidity keeps_deposit) fun _ => .bind (keeps_onCollateral _) fun _ => .pure _

theorem keeps_redeemCollateral : Keeps lent (Reserve.redeemCollateral tokens) :=
  .bind .get fun _ => .bind (.lift _) fun _ => .bind (.lift _) fun _ =>
    .bind (keeps_onCollateral _) fun _ => .bind (keeps_onLiquidity keeps_withdraw) fun _ => .pure _

theorem lentBy_borrow (h : (ReserveLiquidity.borrow amount).exec liquidity = (.ok (), after)) :
    lentBy after = (⟨liquidity.borrowedAmountWads.scaledVal + amount.scaledVal⟩,
      liquidity.cumulativeBorrowRateWads) := by
  simp only [ReserveLiquidity.borrow, exec_get_bind, exec_modify_bind, exec_lift_bind_eq_ok_iff,
    exec_modify, Prod.mk.injEq, Decimal.tryAdd_eq_ok_iff] at h
  obtain ⟨_, -, _, -, _, -, _, ⟨-, rfl⟩, -, rfl⟩ := h
  rfl

theorem lentBy_repay
    (h : (ReserveLiquidity.repay tokens amount).exec liquidity = (.ok (), after)) :
    lentBy after = (⟨liquidity.borrowedAmountWads.scaledVal -
      min amount.scaledVal liquidity.borrowedAmountWads.scaledVal⟩,
        liquidity.cumulativeBorrowRateWads) := by
  simp only [ReserveLiquidity.repay, exec_get_bind, exec_modify_bind, exec_lift_bind_eq_ok_iff,
    exec_modify, Prod.mk.injEq, Decimal.trySub_eq_ok_iff, Decimal.min_scaledVal] at h
  obtain ⟨_, -, _, ⟨-, rfl⟩, -, rfl⟩ := h
  rfl

theorem lentBy_forgiveDebt
    (h : (ReserveLiquidity.forgiveDebt amount).exec liquidity = (.ok (), after)) :
    amount.scaledVal ≤ liquidity.borrowedAmountWads.scaledVal ∧
      lentBy after = (⟨liquidity.borrowedAmountWads.scaledVal - amount.scaledVal⟩,
        liquidity.cumulativeBorrowRateWads) := by
  simp only [ReserveLiquidity.forgiveDebt, exec_get_bind, exec_lift_bind_eq_ok_iff, exec_modify,
    Prod.mk.injEq, Decimal.trySub_eq_ok_iff] at h
  obtain ⟨_, ⟨hle, rfl⟩, -, rfl⟩ := h
  exact ⟨hle, rfl⟩

end Lent

section Step

variable {self after : Loans} {n : Nat}

theorem of_onReserve {α : Type} {x : Fallible LendingError Reserve α}
    (h : self.onReserve x = some (.ok after)) :
    after.borrows = self.borrows ∧ ∃ a, x.exec self.reserve = (.ok a, after.reserve) := by
  simp only [onReserve, Option.some.injEq, map_eq_ok_iff, commit_eq_ok_iff] at h
  obtain ⟨reserve, ⟨a, hexec⟩, rfl⟩ := h
  exact ⟨rfl, a, hexec⟩

/-- A method of the liquidity, and the change of the list beside it. -/
theorem of_onBoth {x : Fallible LendingError ReserveLiquidity Unit}
    {change : Option (Except LendingError (List ObligationLiquidity))}
    (h : self.onBoth (Reserve.onLiquidity x) change = some (.ok after)) :
    x.exec self.reserve.liquidity = (.ok (), after.reserve.liquidity) ∧
      change = some (.ok after.borrows) := by
  unfold onBoth at h
  cases hcommit : (Reserve.onLiquidity x).commit self.reserve with
  | error e => simp [hcommit] at h
  | ok reserve =>
    simp only [hcommit] at h
    obtain ⟨borrows, hchange, rfl⟩ := map_map_eq_ok_iff.mp h
    obtain ⟨_, hexec⟩ := commit_eq_ok_iff.mp hcommit
    obtain ⟨liquidity, hliquidity, rfl⟩ := exec_zoom_eq_iff.mp hexec
    exact ⟨hliquidity, hchange⟩

theorem Backed.of_lent (h : Backed n self) (hlent : lent after.reserve = lent self.reserve)
    (hborrows : after.borrows = self.borrows) : Backed n after := by
  obtain ⟨hborrowed, hrate⟩ := Prod.mk.inj hlent
  refine ⟨?_, ?_, ?_⟩
  · rw [hrate]
    exact h.one_le
  · rw [hrate, hborrows]
    exact h.rates
  · rw [hborrowed, hrate, hborrows]
    exact h.shares

/-- A method that keeps what is lent. -/
theorem Backed.of_keeps {α : Type} {x : Fallible LendingError Reserve α} (h : Backed n self)
    (hx : Keeps lent x) (hafter : self.onReserve x = some (.ok after)) : Backed n after := by
  obtain ⟨hborrows, a, hexec⟩ := of_onReserve hafter
  have hlent := hx self.reserve
  rw [hexec] at hlent
  exact h.of_lent hlent hborrows

/-- **One accrual** costs one unit. -/
theorem Backed.accrue {slot : UInt64} (h : Backed n self)
    (hafter : self.transact (.accrueInterest slot) = some (.ok after)) : Backed (n + 1) after := by
  obtain ⟨hborrows, _, hexec⟩ := of_onReserve hafter
  rw [exec_bind_eq_ok_iff] at hexec
  obtain ⟨_, reserve, haccrue, hmodify⟩ := hexec
  have hlent : lent after.reserve = lent reserve := by
    rw [exec_modify, Prod.mk.injEq] at hmodify
    rw [← hmodify.2]
    rfl
  have hone : (0 : ℚ) ≤ 1 / wad := by positivity
  rcases accrueInterest_of_ok haccrue with ⟨-, rfl⟩ | ⟨slots, rate, compounded, -, -, hc, rfl⟩
  · have hsame := h.of_lent hlent hborrows
    refine ⟨hsame.one_le, hsame.rates, hsame.shares.trans ?_⟩
    push_cast
    rw [add_div]
    linarith
  · have hwad := wad_le_compounded hc
    have hgrown : after.reserve.liquidity.borrowedAmountWads.scaledVal =
        self.reserve.liquidity.borrowedAmountWads.scaledVal * compounded.scaledVal / wad :=
      (congrArg (Decimal.scaledVal ∘ Prod.fst) hlent).trans (add_newDebt _ hwad)
    have hrate : after.reserve.liquidity.cumulativeBorrowRateWads.scaledVal =
        self.reserve.liquidity.cumulativeBorrowRateWads.scaledVal * compounded.scaledVal / wad :=
      congrArg (Decimal.scaledVal ∘ Prod.snd) hlent
    have hmore : self.reserve.liquidity.cumulativeBorrowRateWads.scaledVal ≤
        after.reserve.liquidity.cumulativeBorrowRateWads.scaledVal :=
      hrate ▸ le_mul_div_self wad_pos hwad
    refine ⟨h.one_le.trans hmore, ?_, ?_⟩
    · rw [hborrows]
      exact fun liquidity hmem =>
        ⟨(h.rates liquidity hmem).1, (h.rates liquidity hmem).2.trans hmore⟩
    · have hdrift := Shares.ratio_le_grown self.reserve.liquidity.borrowedAmountWads.scaledVal
        wad_pos h.one_le hwad
      rw [← hgrown, ← hrate] at hdrift
      rw [hborrows]
      refine h.shares.trans ?_
      push_cast
      rw [add_div]
      linarith

theorem Backed.add {reserve : Pubkey} (h : Backed n self)
    (hafter : self.transact (.add reserve) = some (.ok after)) : Backed n after := by
  obtain rfl := Except.ok.inj (Option.some.inj hafter)
  have hpos := wad_pos.trans_le h.one_le
  refine ⟨h.one_le, ?_, ?_⟩
  · intro liquidity hmem
    rcases List.mem_append.mp hmem with hmem | hmem
    · exact h.rates liquidity hmem
    · obtain rfl := List.mem_singleton.mp hmem
      exact ⟨hpos, Nat.le_refl _⟩
  · have hzero : share (.new reserve self.reserve.liquidity.cumulativeBorrowRateWads) = 0 := by
      simp [share, ObligationLiquidity.new]
    simpa [hzero] using h.shares

/-- A refreshed debt is no larger a share than it was. -/
theorem Backed.catchUp {index : Nat} (h : Backed n self)
    (hafter : self.transact (.catchUp index) = some (.ok after)) : Backed n after := by
  obtain ⟨borrows, hchange, rfl⟩ := map_map_eq_ok_iff.mp hafter
  refine ⟨h.one_le, ?_, ?_⟩
  · refine forall_changeAt (fun {a b} haccrue ha => ?_) hchange h.rates
    obtain ⟨hle, ⟨-, rfl⟩ | rfl⟩ := ObligationLiquidity.accrueInterest_cases haccrue
    · exact ha
    · exact ⟨ha.1.trans_le hle, Nat.le_refl _⟩
  · obtain ⟨entry, changed, hentry, haccrue, hsum⟩ := sum_changeAt share hchange
    have hrates := h.rates entry (List.mem_of_getElem? hentry)
    have hshare : share changed ≤ share entry := by
      obtain ⟨hle, ⟨-, rfl⟩ | rfl⟩ := ObligationLiquidity.accrueInterest_cases haccrue
      · exact le_refl _
      · exact Shares.caughtUp_le wad_pos hrates.1 hle
    have hshares := h.shares
    dsimp only
    rw [hsum]
    linarith

/-- A fresh loan is the same number in both books. -/
theorem Backed.borrow {index : Nat} {amount : Decimal} (h : Backed n self)
    (hfresh : self.Fresh (.borrow index amount))
    (hafter : self.transact (.borrow index amount) = some (.ok after)) : Backed n after := by
  obtain ⟨hborrow, hchange⟩ := of_onBoth hafter
  obtain ⟨hborrowed, hrate⟩ := Prod.mk.inj (lentBy_borrow hborrow)
  refine ⟨?_, ?_, ?_⟩
  · rw [hrate]
    exact h.one_le
  · rw [hrate]
    refine forall_changeAt (fun {a b} hb ha => ?_) hchange h.rates
    rw [(ObligationLiquidity.borrow_eq_ok_iff.mp hb).2]
    exact ha
  · obtain ⟨entry, changed, hentry, hb, hsum⟩ := sum_changeAt share hchange
    have hsame := hfresh entry hentry
    have hshares := h.shares
    obtain ⟨-, rfl⟩ := ObligationLiquidity.borrow_eq_ok_iff.mp hb
    rw [hsum, hborrowed, hrate]
    simp only [share, hsame]
    push_cast
    rw [add_div, add_div]
    linarith

/-- What is taken off a debt and off the total: the debt's share is the larger part. -/
theorem Backed.settle {index : Nat} {amount : Decimal} (h : Backed n self)
    (hchange : settleAt self.borrows index
      (fun liquidity => amount = liquidity.borrowedAmountWads) (·.repay amount) =
        some (.ok after.borrows))
    (hborrowed : self.reserve.liquidity.borrowedAmountWads.scaledVal ≤
      after.reserve.liquidity.borrowedAmountWads.scaledVal + amount.scaledVal)
    (hrate : after.reserve.liquidity.cumulativeBorrowRateWads =
      self.reserve.liquidity.cumulativeBorrowRateWads) : Backed n after := by
  refine ⟨?_, ?_, ?_⟩
  · rw [hrate]
    exact h.one_le
  · rw [hrate]
    refine forall_settleAt (fun {a b} hb ha => ?_) hchange h.rates
    rw [(ObligationLiquidity.repay_eq_ok_iff.mp hb).2]
    exact ha
  · have hpos : (0 : ℚ) < self.reserve.liquidity.cumulativeBorrowRateWads.scaledVal := by
      exact_mod_cast wad_pos.trans_le h.one_le
    have htotal : (self.reserve.liquidity.borrowedAmountWads.scaledVal : ℚ) /
          self.reserve.liquidity.cumulativeBorrowRateWads.scaledVal -
        amount.scaledVal / self.reserve.liquidity.cumulativeBorrowRateWads.scaledVal ≤
          after.reserve.liquidity.borrowedAmountWads.scaledVal /
            self.reserve.liquidity.cumulativeBorrowRateWads.scaledVal := by
      rw [← sub_div]
      refine div_le_div_of_nonneg_right ?_ hpos.le
      have : (self.reserve.liquidity.borrowedAmountWads.scaledVal : ℚ) ≤
          after.reserve.liquidity.borrowedAmountWads.scaledVal + amount.scaledVal := by
        exact_mod_cast hborrowed
      linarith
    obtain ⟨entry, hentry, hcases⟩ := sum_settleAt share hchange
    obtain ⟨hentryPos, hentryLe⟩ := h.rates entry (List.mem_of_getElem? hentry)
    have hpart : (amount.scaledVal : ℚ) /
          self.reserve.liquidity.cumulativeBorrowRateWads.scaledVal ≤
        amount.scaledVal / entry.cumulativeBorrowRateWads.scaledVal := by
      refine div_le_div_of_nonneg_left (by positivity) (by exact_mod_cast hentryPos) ?_
      exact_mod_cast hentryLe
    have hfall : (after.borrows.map share).sum ≤ (self.borrows.map share).sum -
        amount.scaledVal / entry.cumulativeBorrowRateWads.scaledVal := by
      rcases hcases with ⟨hall, hsum⟩ | ⟨changed, hrepay, hsum⟩
      · have heq : amount = entry.borrowedAmountWads := by simpa using hall
        rw [hsum, heq, share]
      · obtain ⟨hle, rfl⟩ := ObligationLiquidity.repay_eq_ok_iff.mp hrepay
        rw [hsum, share, share]
        push_cast [Nat.cast_sub hle]
        rw [sub_div]
        linarith
    have hshares := h.shares
    rw [hrate]
    linarith

theorem Backed.step (h : Backed n self) (move : Move) (hfresh : self.Fresh move) :
    Backed (n + (self.step move).2) (self.step move).1 := by
  unfold Loans.step
  split
  · next after hafter =>
    cases move with
    | depositLiquidity amount => exact h.of_keeps keeps_depositLiquidity hafter
    | redeemCollateral amount => exact h.of_keeps keeps_redeemCollateral hafter
    | donate amount => exact h.of_keeps (keeps_onLiquidity keeps_deposit) hafter
    | redeemFees amount => exact h.of_keeps (keeps_onLiquidity keeps_redeemFees) hafter
    | accrueInterest slot => exact h.accrue hafter
    | add reserve => exact h.add hafter
    | catchUp index => exact h.catchUp hafter
    | borrow index amount => exact h.borrow hfresh hafter
    | repay index tokens amount =>
      obtain ⟨hrepay, hchange⟩ := of_onBoth hafter
      obtain ⟨hborrowed, hrate⟩ := Prod.mk.inj (lentBy_repay hrepay)
      refine h.settle hchange ?_ hrate
      rw [hborrowed]
      dsimp only
      omega
    | forgiveDebt index amount =>
      obtain ⟨hforgive, hchange⟩ := of_onBoth hafter
      obtain ⟨hle, hlent⟩ := lentBy_forgiveDebt hforgive
      obtain ⟨hborrowed, hrate⟩ := Prod.mk.inj hlent
      refine h.settle hchange ?_ hrate
      rw [hborrowed]
      dsimp only
      omega
  · exact h

/-- No debt is above its share at the current rate. -/
theorem owed_le_shares {rate : Nat} {borrows : List ObligationLiquidity}
    (hrates : ∀ liquidity ∈ borrows, 0 < liquidity.cumulativeBorrowRateWads.scaledVal ∧
      liquidity.cumulativeBorrowRateWads.scaledVal ≤ rate) :
    (owed borrows : ℚ) ≤ (borrows.map share).sum * rate := by
  induction borrows with
  | nil => simp [owed]
  | cons liquidity borrows ih =>
    obtain ⟨⟨hpos, hle⟩, hrest⟩ := List.forall_mem_cons.mp hrates
    have hentry : (0 : ℚ) < liquidity.cumulativeBorrowRateWads.scaledVal := by
      exact_mod_cast hpos
    have hshare : (liquidity.borrowedAmountWads.scaledVal : ℚ) ≤ share liquidity * rate := by
      calc (liquidity.borrowedAmountWads.scaledVal : ℚ)
          = share liquidity * liquidity.cumulativeBorrowRateWads.scaledVal := by
            rw [share, div_mul_cancel₀ _ hentry.ne']
        _ ≤ share liquidity * rate :=
          mul_le_mul_of_nonneg_left (by exact_mod_cast hle)
            (div_nonneg (by positivity) hentry.le)
    have hothers := ih hrest
    simp only [owed_cons, List.map_cons, List.sum_cons]
    push_cast
    linarith

/-- What is on record is no more than what is owed now. -/
theorem Backed.owed_le_owedNow (h : Backed n self) : (owed self.borrows : ℚ) ≤ self.owedNow :=
  owed_le_shares h.rates

/-- What is owed now, against what the reserve has lent. -/
theorem Backed.owedNow_le (h : Backed n self) :
    self.owedNow ≤ self.reserve.liquidity.borrowedAmountWads.scaledVal +
      n * self.reserve.liquidity.cumulativeBorrowRateWads.scaledVal / wad := by
  obtain ⟨rate, hrate⟩ : ∃ rate,
      self.reserve.liquidity.cumulativeBorrowRateWads.scaledVal = rate := ⟨_, rfl⟩
  have hshares := h.shares
  have hone := h.one_le
  rw [owedNow]
  rw [hrate] at hshares hone ⊢
  have hpos : (0 : ℚ) < rate := by exact_mod_cast wad_pos.trans_le hone
  calc (self.borrows.map share).sum * rate
      ≤ (self.reserve.liquidity.borrowedAmountWads.scaledVal / rate + n / wad) * rate :=
        mul_le_mul_of_nonneg_right hshares hpos.le
    _ = self.reserve.liquidity.borrowedAmountWads.scaledVal + n * rate / wad := by
      field_simp

end Step

/-- **The two books.**  From a reserve that has lent nothing at a cumulative rate of at least
one, over every interleaving of its methods with those of the borrows: all that is owed at
the current rate exceeds what the reserve counts as lent by at most one unit for each
accrual, at the cumulative rate. -/
theorem debts_backed (reserve : Reserve) (moves : List Move)
    (hone : wad ≤ reserve.liquidity.cumulativeBorrowRateWads.scaledVal)
    (hfresh : ∀ t ∈ Machine.steps Loans.step ⟨reserve, []⟩ moves, t.pre.Fresh t.input) :
    let after := Machine.final Loans.step ⟨reserve, []⟩ moves
    let accruals := (Machine.outputs Loans.step ⟨reserve, []⟩ moves).sum
    (owed after.borrows : ℚ) ≤ after.owedNow ∧
      after.owedNow ≤ after.reserve.liquidity.borrowedAmountWads.scaledVal +
        accruals * after.reserve.liquidity.cumulativeBorrowRateWads.scaledVal / wad := by
  intro after accruals
  have hstart : Backed ([] : List Nat).sum ⟨reserve, []⟩ :=
    ⟨hone, by simp, by simp only [List.map_nil, List.sum_nil, Nat.cast_zero]; positivity⟩
  have hstep : ∀ (counts : List Nat) (self : Loans) (move : Move), self.Fresh move →
      Backed counts.sum self → Backed (counts ++ [(self.step move).2]).sum (self.step move).1 := by
    intro counts self move hmove h
    rw [List.sum_append, List.sum_singleton]
    exact h.step move hmove
  have hrun := Machine.history_invariant_of_steps hstep hstart moves hfresh
  exact ⟨hrun.owed_le_owedNow, hrun.owedNow_le⟩

/-- Two loans a thousand slots apart, the first repaid in part. -/
theorem debts_backed_two :
    let moves : List Move := [.depositLiquidity 500, .add (plainReserve 0 0 0).liquidity.mintPubkey,
      .borrow 0 (.ofNat 900), .accrueInterest 1000, .add (plainReserve 0 0 0).liquidity.mintPubkey,
      .borrow 1 (.ofNat 300), .accrueInterest 2500, .catchUp 0, .repay 0 100 (.ofNat 100)]
    let after := Machine.final Loans.step ⟨plainReserve 1000 0 1000, []⟩ moves
    wad * 1100 < owed after.borrows ∧ (owed after.borrows : ℚ) ≤ after.owedNow ∧
      after.owedNow ≤ after.reserve.liquidity.borrowedAmountWads.scaledVal +
        2 * after.reserve.liquidity.cumulativeBorrowRateWads.scaledVal / wad := by
  intro moves after
  have hcount : (Machine.outputs Loans.step ⟨plainReserve 1000 0 1000, []⟩ moves).sum = 2 := by
    decide +kernel
  have hrun := debts_backed (plainReserve 1000 0 1000) moves (by decide +kernel)
    (by decide +kernel)
  have hlarge : wad * 1100 < owed after.borrows := by decide +kernel
  have hafter : Machine.final Loans.step ⟨plainReserve 1000 0 1000, []⟩ moves = after := rfl
  clear_value after
  dsimp only at hrun
  rw [hcount, hafter] at hrun
  exact ⟨hlarge, hrun⟩

end Loans

end Solend

end Gyrfalcon
