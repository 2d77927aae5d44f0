import Gyrfalcon.SavePool
import Mathlib.Algebra.BigOperators.Group.List.Basic
import Mathlib.Tactic.Abel

/-!
# Solend obligations (`patches/solend-sdk/src/state/obligation.rs`)

An obligation lists its deposits and its borrows, each unique by reserve, at
most ten in all.  Nothing but the code path keeps it so: `find_or_add` looks
before it pushes, and every other method changes an entry in place or removes
it (`books_run`).  `none` is the panic of an index out of bounds.
-/

namespace Gyrfalcon

open FixedPoint

namespace Solend

def maxObligationReserves : Nat := 10

/-! ## Entries -/

structure ObligationCollateral where
  depositReserve : Pubkey
  depositedAmount : UInt64
  marketValue : Decimal
  attributedBorrowValue : Decimal
  deriving DecidableEq, Repr

namespace ObligationCollateral

def new (depositReserve : Pubkey) : ObligationCollateral where
  depositReserve := depositReserve
  depositedAmount := 0
  marketValue := .zero
  attributedBorrowValue := .zero

def deposit (self : ObligationCollateral) (collateralAmount : UInt64) :
    Except LendingError ObligationCollateral := do
  let depositedAmount ← u64CheckedAdd self.depositedAmount collateralAmount
  return { self with depositedAmount }

def withdraw (self : ObligationCollateral) (collateralAmount : UInt64) :
    Except LendingError ObligationCollateral := do
  let depositedAmount ← u64CheckedSub self.depositedAmount collateralAmount
  return { self with depositedAmount }

variable {self after : ObligationCollateral} {amount : UInt64}

theorem deposit_reserve (h : self.deposit amount = .ok after) :
    after.depositReserve = self.depositReserve := by
  simp only [deposit, bind_eq_ok_iff, pure_eq_ok_iff] at h
  obtain ⟨_, -, rfl⟩ := h
  rfl

theorem withdraw_reserve (h : self.withdraw amount = .ok after) :
    after.depositReserve = self.depositReserve := by
  simp only [withdraw, bind_eq_ok_iff, pure_eq_ok_iff] at h
  obtain ⟨_, -, rfl⟩ := h
  rfl

theorem withdraw_amount (h : self.withdraw amount = .ok after) :
    self.depositedAmount.toNat = amount.toNat + after.depositedAmount.toNat := by
  simp only [withdraw, bind_eq_ok_iff, pure_eq_ok_iff, u64CheckedSub_eq_ok_iff] at h
  obtain ⟨_, hsum, rfl⟩ := h
  exact hsum

theorem exists_withdraw (h : amount.toNat ≤ self.depositedAmount.toNat) :
    ∃ after, self.withdraw amount = .ok after := by
  have hsub := UInt64.toNat_sub_of_le self.depositedAmount amount (UInt64.le_iff_toNat_le.mpr h)
  refine ⟨{ self with depositedAmount := self.depositedAmount - amount }, ?_⟩
  simp only [withdraw, bind_eq_ok_iff, pure_eq_ok_iff, u64CheckedSub_eq_ok_iff]
  exact ⟨_, by omega, rfl⟩

end ObligationCollateral

structure ObligationLiquidity where
  borrowReserve : Pubkey
  cumulativeBorrowRateWads : Decimal
  borrowedAmountWads : Decimal
  marketValue : Decimal
  deriving DecidableEq, Repr

namespace ObligationLiquidity

def new (borrowReserve : Pubkey) (cumulativeBorrowRateWads : Decimal) : ObligationLiquidity where
  borrowReserve := borrowReserve
  cumulativeBorrowRateWads := cumulativeBorrowRateWads
  borrowedAmountWads := .zero
  marketValue := .zero

def repay (self : ObligationLiquidity) (settleAmount : Decimal) :
    Except LendingError ObligationLiquidity := do
  let borrowedAmountWads ← self.borrowedAmountWads.trySub settleAmount
  return { self with borrowedAmountWads }

def borrow (self : ObligationLiquidity) (borrowAmount : Decimal) :
    Except LendingError ObligationLiquidity := do
  let borrowedAmountWads ← self.borrowedAmountWads.tryAdd borrowAmount
  return { self with borrowedAmountWads }

def accrueInterest (self : ObligationLiquidity) (cumulativeBorrowRateWads : Decimal) :
    Except LendingError ObligationLiquidity := do
  if cumulativeBorrowRateWads < self.cumulativeBorrowRateWads then .error .negativeInterestRate
  else if cumulativeBorrowRateWads = self.cumulativeBorrowRateWads then return self
  else
    let ratio ← cumulativeBorrowRateWads.tryDiv self.cumulativeBorrowRateWads
    let compoundedInterestRate ← ratio.tryIntoRate
    let borrowedAmountWads ← self.borrowedAmountWads.tryMulRate compoundedInterestRate
    return { self with borrowedAmountWads, cumulativeBorrowRateWads }

variable {self after : ObligationLiquidity} {amount rate : Decimal}

theorem repay_eq_ok_iff : self.repay amount = .ok after ↔
    amount.scaledVal ≤ self.borrowedAmountWads.scaledVal ∧ after = { self with
      borrowedAmountWads := ⟨self.borrowedAmountWads.scaledVal - amount.scaledVal⟩ } := by
  simp only [repay, bind_eq_ok_iff, pure_eq_ok_iff, Decimal.trySub_eq_ok_iff]
  constructor
  · rintro ⟨_, ⟨hle, rfl⟩, rfl⟩
    exact ⟨hle, rfl⟩
  · rintro ⟨hle, rfl⟩
    exact ⟨_, ⟨hle, rfl⟩, rfl⟩

theorem borrow_eq_ok_iff : self.borrow amount = .ok after ↔
    self.borrowedAmountWads.scaledVal + amount.scaledVal < u192Bound ∧ after = { self with
      borrowedAmountWads := ⟨self.borrowedAmountWads.scaledVal + amount.scaledVal⟩ } := by
  simp only [borrow, bind_eq_ok_iff, pure_eq_ok_iff, Decimal.tryAdd_eq_ok_iff]
  constructor
  · rintro ⟨_, ⟨hlt, rfl⟩, rfl⟩
    exact ⟨hlt, rfl⟩
  · rintro ⟨hlt, rfl⟩
    exact ⟨_, ⟨hlt, rfl⟩, rfl⟩

/-- Interest at a rate of the reserve: none, or the ratio of the two rates, both rounded down. -/
theorem accrueInterest_cases (h : self.accrueInterest rate = .ok after) :
    self.cumulativeBorrowRateWads.scaledVal ≤ rate.scaledVal ∧
      (rate = self.cumulativeBorrowRateWads ∧ after = self ∨
        after = { self with
          cumulativeBorrowRateWads := rate
          borrowedAmountWads := ⟨self.borrowedAmountWads.scaledVal *
            (rate.scaledVal * wad / self.cumulativeBorrowRateWads.scaledVal) / wad⟩ }) := by
  unfold accrueInterest at h
  split at h
  · cases h
  · next hle =>
    rw [Decimal.lt_iff, Nat.not_lt] at hle
    refine ⟨hle, ?_⟩
    split at h
    · next heq => exact Or.inl ⟨heq, (pure_eq_ok_iff.mp h).symm⟩
    · simp only [bind_eq_ok_iff, pure_eq_ok_iff, Decimal.tryDiv_eq_ok_iff,
        Decimal.tryIntoRate_eq_ok_iff, Decimal.tryMulRate_eq_ok_iff] at h
      obtain ⟨_, ⟨-, -, rfl⟩, compounded, hratio, _, ⟨-, rfl⟩, rfl⟩ := h
      dsimp only at hratio
      rw [hratio]
      exact Or.inr rfl

theorem repay_reserve (h : self.repay amount = .ok after) :
    after.borrowReserve = self.borrowReserve := by
  rw [(repay_eq_ok_iff.mp h).2]

theorem borrow_reserve (h : self.borrow amount = .ok after) :
    after.borrowReserve = self.borrowReserve := by
  rw [(borrow_eq_ok_iff.mp h).2]

theorem accrueInterest_reserve (h : self.accrueInterest rate = .ok after) :
    after.borrowReserve = self.borrowReserve := by
  rcases (accrueInterest_cases h).2 with ⟨-, rfl⟩ | rfl
  · rfl
  · rfl

end ObligationLiquidity

/-! ## Lists of entries -/

section Lists

variable {α : Type}

/-- An entry by its reserve, and where it stands. -/
def findIn (key : α → Pubkey) (entries : List α) (reserve : Pubkey)
    (empty missing : LendingError) : Except LendingError (α × Nat) :=
  match entries with
  | [] => .error empty
  | first :: rest =>
    match (first :: rest).findIdx? (key · = reserve) with
    | none => .error missing
    | some index => .ok ((first :: rest).getD index first, index)

/-- The place of an entry, which is pushed if there is none and room for it. -/
def findOrAdd (key : α → Pubkey) (entries : List α) (others : Nat) (reserve : Pubkey) (fresh : α) :
    Except LendingError (List α × Nat) :=
  match entries.findIdx? (key · = reserve) with
  | some index => .ok (entries, index)
  | none =>
    if maxObligationReserves ≤ entries.length + others then .error .obligationReserveLimit
    else .ok (entries ++ [fresh], entries.length)

/-- Change the entry at an index. -/
def changeAt (entries : List α) (index : Nat) (change : α → Except LendingError α) :
    Option (Except LendingError (List α)) :=
  match entries[index]? with
  | none => none
  | some entry => some ((entries.set index ·) <$> change entry)

/-- Take from the entry at an index, and remove it if that takes all of it. -/
def settleAt (entries : List α) (index : Nat) (all : α → Bool)
    (take : α → Except LendingError α) : Option (Except LendingError (List α)) :=
  match entries[index]? with
  | none => none
  | some entry => if all entry then some (.ok (entries.eraseIdx index))
    else some ((entries.set index ·) <$> take entry)

/-- A record around the list. -/
theorem map_map_eq_ok_iff {β : Type} {x : Option (Except LendingError (List α))} {f : List α → β}
    {b : β} :
    x.map (Except.map f) = some (.ok b) ↔ ∃ after, x = some (.ok after) ∧ f after = b := by
  rcases x with _ | _ | after
  · simp
  · simp [Except.map]
  · simp [Except.map]

variable {key : α → Pubkey} {entries after : List α} {index : Nat}

/-- A changed entry keeps its reserve. -/
theorem map_key_changeAt {change : α → Except LendingError α}
    (hkey : ∀ {a b}, change a = .ok b → key b = key a)
    (h : changeAt entries index change = some (.ok after)) :
    after.map key = entries.map key := by
  unfold changeAt at h
  cases hentry : entries[index]? with
  | none => simp [hentry] at h
  | some entry =>
    simp only [hentry, Option.some.injEq, map_eq_ok_iff] at h
    obtain ⟨changed, hchange, rfl⟩ := h
    obtain ⟨hlt, hget⟩ := List.getElem?_eq_some_iff.mp hentry
    have hbound : index < (entries.map key).length := by simpa using hlt
    have hsame : (entries.map key)[index] = key changed := by
      rw [List.getElem_map, hget, hkey hchange]
    rw [List.map_set, ← hsame, List.set_getElem_self]

/-- What is taken from the list leaves the reserves of the others. -/
theorem sublist_key_settleAt {all : α → Bool} {take : α → Except LendingError α}
    (hkey : ∀ {a b}, take a = .ok b → key b = key a)
    (h : settleAt entries index all take = some (.ok after)) :
    (after.map key).Sublist (entries.map key) := by
  cases hentry : entries[index]? with
  | none => simp [settleAt, hentry] at h
  | some entry =>
    by_cases hall : all entry
    · simp only [settleAt, hentry, hall, ↓reduceIte, Option.some.injEq, Except.ok.injEq] at h
      rw [← h]
      exact (List.eraseIdx_sublist entries index).map key
    · have hchange : changeAt entries index take = some (.ok after) := by
        simpa [settleAt, changeAt, hentry, hall] using h
      rw [map_key_changeAt hkey hchange]

/-- What holds of every entry and survives the change holds of every entry. -/
theorem forall_changeAt {P : α → Prop} {change : α → Except LendingError α}
    (hchange : ∀ {a b}, change a = .ok b → P a → P b)
    (h : changeAt entries index change = some (.ok after)) (hall : ∀ a ∈ entries, P a) :
    ∀ a ∈ after, P a := by
  unfold changeAt at h
  cases hentry : entries[index]? with
  | none => simp [hentry] at h
  | some entry =>
    simp only [hentry, Option.some.injEq, map_eq_ok_iff] at h
    obtain ⟨changed, hok, rfl⟩ := h
    intro a ha
    rcases List.mem_or_eq_of_mem_set ha with ha | rfl
    · exact hall a ha
    · exact hchange hok (hall entry (List.mem_of_getElem? hentry))

theorem forall_settleAt {P : α → Prop} {all : α → Bool} {take : α → Except LendingError α}
    (htake : ∀ {a b}, take a = .ok b → P a → P b)
    (h : settleAt entries index all take = some (.ok after)) (hall : ∀ a ∈ entries, P a) :
    ∀ a ∈ after, P a := by
  cases hentry : entries[index]? with
  | none => simp [settleAt, hentry] at h
  | some entry =>
    by_cases hgone : all entry
    · simp only [settleAt, hentry, hgone, ↓reduceIte, Option.some.injEq, Except.ok.injEq] at h
      rw [← h]
      exact fun a ha => hall a (List.mem_of_mem_eraseIdx ha)
    · have hchange : changeAt entries index take = some (.ok after) := by
        simpa [settleAt, changeAt, hentry, hgone] using h
      exact forall_changeAt htake hchange hall

/-- A sum over the entries follows the changed one. -/
theorem sum_changeAt {G : Type} [AddCommGroup G] (weight : α → G)
    {change : α → Except LendingError α} (h : changeAt entries index change = some (.ok after)) :
    ∃ entry changed, entries[index]? = some entry ∧ change entry = .ok changed ∧
      (after.map weight).sum = (entries.map weight).sum - weight entry + weight changed := by
  unfold changeAt at h
  cases hentry : entries[index]? with
  | none => simp [hentry] at h
  | some entry =>
    simp only [hentry, Option.some.injEq, map_eq_ok_iff] at h
    obtain ⟨changed, hchange, rfl⟩ := h
    obtain ⟨hlt, hget⟩ := List.getElem?_eq_some_iff.mp hentry
    refine ⟨entry, changed, rfl, hchange, ?_⟩
    have hbound : index < (entries.map weight).length := by simpa using hlt
    rw [List.map_set, List.sum_set', dif_pos hbound, List.getElem_map, hget]
    abel

theorem sum_settleAt {G : Type} [AddCommGroup G] (weight : α → G) {all : α → Bool}
    {take : α → Except LendingError α} (h : settleAt entries index all take = some (.ok after)) :
    ∃ entry, entries[index]? = some entry ∧
      (all entry ∧ (after.map weight).sum = (entries.map weight).sum - weight entry ∨
        ∃ changed, take entry = .ok changed ∧
          (after.map weight).sum = (entries.map weight).sum - weight entry + weight changed) := by
  cases hentry : entries[index]? with
  | none => simp [settleAt, hentry] at h
  | some entry =>
    refine ⟨entry, rfl, ?_⟩
    by_cases hall : all entry
    · simp only [settleAt, hentry, hall, ↓reduceIte, Option.some.injEq, Except.ok.injEq] at h
      obtain ⟨hlt, hget⟩ := List.getElem?_eq_some_iff.mp hentry
      have hbound : index < (entries.map weight).length := by simpa using hlt
      have hsum := List.CommMonoid.add_sum_eraseIdx hbound
      rw [List.getElem_map, hget] at hsum
      refine Or.inl ⟨hall, ?_⟩
      rw [List.eraseIdx_map, h] at hsum
      rw [← hsum]
      abel
    · have hchange : changeAt entries index take = some (.ok after) := by
        simpa [settleAt, changeAt, hentry, hall] using h
      obtain ⟨entry', changed, hentry', htake, hsum⟩ := sum_changeAt weight hchange
      obtain rfl := Option.some.inj (hentry.symm.trans hentry')
      exact Or.inr ⟨changed, htake, hsum⟩

theorem findOrAdd_cases {others : Nat} {reserve : Pubkey} {fresh : α}
    (h : findOrAdd key entries others reserve fresh = .ok (after, index)) :
    after = entries ∨ reserve ∉ entries.map key ∧
      entries.length + others < maxObligationReserves ∧ after = entries ++ [fresh] := by
  unfold findOrAdd at h
  cases hfind : entries.findIdx? (key · = reserve) with
  | some found =>
    simp only [hfind, Except.ok.injEq, Prod.mk.injEq] at h
    exact Or.inl h.1.symm
  | none =>
    simp only [hfind] at h
    split at h
    · cases h
    · next hroom =>
      simp only [Except.ok.injEq, Prod.mk.injEq] at h
      refine Or.inr ⟨?_, Nat.lt_of_not_le hroom, h.1.symm⟩
      simpa [List.findIdx?_eq_none_iff] using hfind

end Lists

/-! ## Obligations -/

structure Obligation where
  version : UInt8
  lastUpdate : LastUpdate
  lendingMarket : Pubkey
  owner : Pubkey
  deposits : List ObligationCollateral
  borrows : List ObligationLiquidity
  depositedValue : Decimal
  borrowedValue : Decimal
  unweightedBorrowedValue : Decimal
  borrowedValueUpperBound : Decimal
  allowedBorrowValue : Decimal
  unhealthyBorrowValue : Decimal
  superUnhealthyBorrowValue : Decimal
  borrowingIsolatedAsset : Bool
  closeable : Bool
  deriving DecidableEq, Repr

structure InitObligationParams where
  currentSlot : UInt64
  lendingMarket : Pubkey
  owner : Pubkey
  deposits : List ObligationCollateral
  borrows : List ObligationLiquidity

namespace Obligation

/-- `init` over the default. -/
def new (params : InitObligationParams) : Obligation where
  version := programVersion
  lastUpdate := .new params.currentSlot
  lendingMarket := params.lendingMarket
  owner := params.owner
  deposits := params.deposits
  borrows := params.borrows
  depositedValue := .zero
  borrowedValue := .zero
  unweightedBorrowedValue := .zero
  borrowedValueUpperBound := .zero
  allowedBorrowValue := .zero
  unhealthyBorrowValue := .zero
  superUnhealthyBorrowValue := .zero
  borrowingIsolatedAsset := false
  closeable := false

def loanToValue (self : Obligation) : Except LendingError Decimal :=
  self.borrowedValue.tryDiv self.depositedValue

def repay (self : Obligation) (settleAmount : Decimal) (liquidityIndex : Nat) :
    Option (Except LendingError Obligation) :=
  (settleAt self.borrows liquidityIndex
      (fun liquidity => settleAmount = liquidity.borrowedAmountWads)
      (·.repay settleAmount)).map
    (Except.map fun borrows => { self with borrows })

def withdraw (self : Obligation) (withdrawAmount : UInt64) (collateralIndex : Nat) :
    Option (Except LendingError Obligation) :=
  (settleAt self.deposits collateralIndex
      (fun collateral => withdrawAmount = collateral.depositedAmount)
      (·.withdraw withdrawAmount)).map
    (Except.map fun deposits => { self with deposits })

def remainingBorrowValue (self : Obligation) : Except LendingError Decimal :=
  self.allowedBorrowValue.trySub self.borrowedValueUpperBound

def findCollateralInDeposits (self : Obligation) (depositReserve : Pubkey) :
    Except LendingError (ObligationCollateral × Nat) :=
  findIn (·.depositReserve) self.deposits depositReserve .obligationDepositsEmpty
    .invalidObligationCollateral

def findOrAddCollateralToDeposits (self : Obligation) (depositReserve : Pubkey) :
    Except LendingError (Obligation × Nat) := do
  let (deposits, index) ← findOrAdd (·.depositReserve) self.deposits self.borrows.length
    depositReserve (.new depositReserve)
  return ({ self with deposits }, index)

/-- `find_liquidity_in_borrows`, and its `_mut` twin. -/
def findLiquidityInBorrows (self : Obligation) (borrowReserve : Pubkey) :
    Except LendingError (ObligationLiquidity × Nat) :=
  findIn (·.borrowReserve) self.borrows borrowReserve .obligationBorrowsEmpty
    .invalidObligationLiquidity

def findOrAddLiquidityToBorrows (self : Obligation) (borrowReserve : Pubkey)
    (cumulativeBorrowRateWads : Decimal) : Except LendingError (Obligation × Nat) := do
  let (borrows, index) ← findOrAdd (·.borrowReserve) self.borrows self.deposits.length
    borrowReserve (.new borrowReserve cumulativeBorrowRateWads)
  return ({ self with borrows }, index)

/-! ## Runs -/

/-- A method, or one of an entry that was handed out. -/
inductive Call where
  | findOrAddCollateralToDeposits (depositReserve : Pubkey)
  | findOrAddLiquidityToBorrows (borrowReserve : Pubkey) (cumulativeBorrowRateWads : Decimal)
  | deposit (index : Nat) (collateralAmount : UInt64)
  | borrow (index : Nat) (borrowAmount : Decimal)
  | accrueInterest (index : Nat) (cumulativeBorrowRateWads : Decimal)
  | withdraw (withdrawAmount : UInt64) (index : Nat)
  | repay (settleAmount : Decimal) (index : Nat)

def call (self : Obligation) : Call → Option (Except LendingError Obligation)
  | .findOrAddCollateralToDeposits depositReserve =>
    some (Prod.fst <$> self.findOrAddCollateralToDeposits depositReserve)
  | .findOrAddLiquidityToBorrows borrowReserve cumulativeBorrowRateWads =>
    some (Prod.fst <$> self.findOrAddLiquidityToBorrows borrowReserve cumulativeBorrowRateWads)
  | .deposit index collateralAmount =>
    (changeAt self.deposits index (·.deposit collateralAmount)).map
      (Except.map fun deposits => { self with deposits })
  | .borrow index borrowAmount =>
    (changeAt self.borrows index (·.borrow borrowAmount)).map
      (Except.map fun borrows => { self with borrows })
  | .accrueInterest index cumulativeBorrowRateWads =>
    (changeAt self.borrows index (·.accrueInterest cumulativeBorrowRateWads)).map
      (Except.map fun borrows => { self with borrows })
  | .withdraw withdrawAmount index => self.withdraw withdrawAmount index
  | .repay settleAmount index => self.repay settleAmount index

/-- The collateral a call that goes through moves in or out. -/
def moved (self : Obligation) : Call → Option (Pubkey × Int)
  | .deposit index collateralAmount =>
    self.deposits[index]?.map fun collateral => (collateral.depositReserve, collateralAmount.toNat)
  | .withdraw withdrawAmount index =>
    self.deposits[index]?.map fun collateral => (collateral.depositReserve, -withdrawAmount.toNat)
  | _ => none

/-- One call and what it moves; a failed one has changed nothing. -/
def step (self : Obligation) (c : Call) : Obligation × Option (Pubkey × Int) :=
  match self.call c with
  | some (.ok after) => (after, self.moved c)
  | _ => (self, none)

/-- Unique by reserve, and within the limit. -/
structure WellFormed (obligation : Obligation) : Prop where
  deposits : (obligation.deposits.map (·.depositReserve)).Nodup
  borrows : (obligation.borrows.map (·.borrowReserve)).Nodup
  limit : obligation.deposits.length + obligation.borrows.length ≤ maxObligationReserves

variable {self after : Obligation}

/-- A change of the deposits whose reserves are among those there were. -/
theorem WellFormed.of_deposits {deposits : List ObligationCollateral} (h : WellFormed self)
    (hsub : (deposits.map (·.depositReserve)).Sublist (self.deposits.map (·.depositReserve))) :
    WellFormed { self with deposits } where
  deposits := hsub.nodup h.deposits
  borrows := h.borrows
  limit := by
    have hlen := hsub.length_le
    have hlimit := h.limit
    simp only [List.length_map] at hlen
    dsimp only
    omega

theorem WellFormed.of_borrows {borrows : List ObligationLiquidity} (h : WellFormed self)
    (hsub : (borrows.map (·.borrowReserve)).Sublist (self.borrows.map (·.borrowReserve))) :
    WellFormed { self with borrows } where
  deposits := h.deposits
  borrows := hsub.nodup h.borrows
  limit := by
    have hlen := hsub.length_le
    have hlimit := h.limit
    simp only [List.length_map] at hlen
    dsimp only
    omega

/-- **One call.** -/
theorem WellFormed.call {c : Call} (h : WellFormed self) (hcall : self.call c = some (.ok after)) :
    WellFormed after := by
  cases c with
  | findOrAddCollateralToDeposits reserve =>
    simp only [Obligation.call, findOrAddCollateralToDeposits, Option.some.injEq, map_eq_ok_iff,
      bind_eq_ok_iff, pure_eq_ok_iff] at hcall
    obtain ⟨_, ⟨⟨deposits, index⟩, hfind, rfl⟩, rfl⟩ := hcall
    rcases findOrAdd_cases hfind with rfl | ⟨hnew, hroom, rfl⟩
    · exact h
    · refine ⟨?_, h.borrows, ?_⟩
      · dsimp only
        rw [List.map_append]
        exact h.deposits.append (List.nodup_singleton _)
          (by simpa [ObligationCollateral.new] using hnew)
      · dsimp only
        rw [List.length_append, List.length_singleton]
        omega
  | findOrAddLiquidityToBorrows reserve rate =>
    simp only [Obligation.call, findOrAddLiquidityToBorrows, Option.some.injEq, map_eq_ok_iff,
      bind_eq_ok_iff, pure_eq_ok_iff] at hcall
    obtain ⟨_, ⟨⟨borrows, index⟩, hfind, rfl⟩, rfl⟩ := hcall
    rcases findOrAdd_cases hfind with rfl | ⟨hnew, hroom, rfl⟩
    · exact h
    · refine ⟨h.deposits, ?_, ?_⟩
      · dsimp only
        rw [List.map_append]
        exact h.borrows.append (List.nodup_singleton _)
          (by simpa [ObligationLiquidity.new] using hnew)
      · dsimp only
        rw [List.length_append, List.length_singleton]
        omega
  | deposit index amount =>
    obtain ⟨deposits, hchange, rfl⟩ := map_map_eq_ok_iff.mp hcall
    exact h.of_deposits (by rw [map_key_changeAt ObligationCollateral.deposit_reserve hchange])
  | borrow index amount =>
    obtain ⟨borrows, hchange, rfl⟩ := map_map_eq_ok_iff.mp hcall
    exact h.of_borrows (by rw [map_key_changeAt ObligationLiquidity.borrow_reserve hchange])
  | accrueInterest index rate =>
    obtain ⟨borrows, hchange, rfl⟩ := map_map_eq_ok_iff.mp hcall
    exact h.of_borrows
      (by rw [map_key_changeAt ObligationLiquidity.accrueInterest_reserve hchange])
  | withdraw amount index =>
    obtain ⟨deposits, hsettle, rfl⟩ := map_map_eq_ok_iff.mp hcall
    exact h.of_deposits (sublist_key_settleAt ObligationCollateral.withdraw_reserve hsettle)
  | repay amount index =>
    obtain ⟨borrows, hsettle, rfl⟩ := map_map_eq_ok_iff.mp hcall
    exact h.of_borrows (sublist_key_settleAt ObligationLiquidity.repay_reserve hsettle)

/-- The part of an entry in the collateral of a reserve. -/
def collateralOf (reserve : Pubkey) (collateral : ObligationCollateral) : Int :=
  if collateral.depositReserve = reserve then collateral.depositedAmount.toNat else 0

/-- The collateral of a reserve. -/
def deposited (self : Obligation) (reserve : Pubkey) : Int :=
  (self.deposits.map (collateralOf reserve)).sum

/-- What the movements of a reserve come to. -/
def movement (reserve : Pubkey) (entry : Option (Pubkey × Int)) : Int :=
  match entry with
  | none => 0
  | some (key, amount) => if key = reserve then amount else 0

/-- **One call** changes the collateral of a reserve by what it moves. -/
theorem deposited_call {c : Call} (hcall : self.call c = some (.ok after)) (reserve : Pubkey) :
    after.deposited reserve = self.deposited reserve + movement reserve (self.moved c) := by
  cases c with
  | findOrAddCollateralToDeposits reserve' =>
    simp only [Obligation.call, findOrAddCollateralToDeposits, Option.some.injEq, map_eq_ok_iff,
      bind_eq_ok_iff, pure_eq_ok_iff] at hcall
    obtain ⟨_, ⟨⟨deposits, index⟩, hfind, rfl⟩, rfl⟩ := hcall
    rcases findOrAdd_cases hfind with rfl | ⟨-, -, rfl⟩
    · simp [deposited, moved, movement]
    · simp [deposited, moved, movement, collateralOf, ObligationCollateral.new]
  | findOrAddLiquidityToBorrows reserve' rate =>
    simp only [Obligation.call, findOrAddLiquidityToBorrows, Option.some.injEq, map_eq_ok_iff,
      bind_eq_ok_iff, pure_eq_ok_iff] at hcall
    obtain ⟨_, ⟨_, -, rfl⟩, rfl⟩ := hcall
    simp [deposited, moved, movement]
  | deposit index amount =>
    obtain ⟨deposits, hchange, rfl⟩ := map_map_eq_ok_iff.mp hcall
    obtain ⟨entry, changed, hentry, hdeposit, hsum⟩ := sum_changeAt (collateralOf reserve) hchange
    simp only [ObligationCollateral.deposit, bind_eq_ok_iff, pure_eq_ok_iff,
      u64CheckedAdd_eq_ok_iff] at hdeposit
    obtain ⟨total, htotal, rfl⟩ := hdeposit
    simp only [deposited, moved, movement, hsum, hentry, Option.map_some, collateralOf]
    split
    · rw [← htotal]
      push_cast
      ring
    · ring
  | borrow index amount =>
    obtain ⟨borrows, -, rfl⟩ := map_map_eq_ok_iff.mp hcall
    simp [deposited, moved, movement]
  | accrueInterest index rate =>
    obtain ⟨borrows, -, rfl⟩ := map_map_eq_ok_iff.mp hcall
    simp [deposited, moved, movement]
  | withdraw amount index =>
    obtain ⟨deposits, hsettle, rfl⟩ := map_map_eq_ok_iff.mp hcall
    obtain ⟨entry, hentry, ⟨hall, hsum⟩ | ⟨changed, hwithdraw, hsum⟩⟩ :=
      sum_settleAt (collateralOf reserve) hsettle
    · have hamount : amount = entry.depositedAmount := by simpa using hall
      simp only [deposited, moved, movement, hsum, hentry, Option.map_some, collateralOf, hamount]
      split
      · ring
      · ring
    · simp only [ObligationCollateral.withdraw, bind_eq_ok_iff, pure_eq_ok_iff,
        u64CheckedSub_eq_ok_iff] at hwithdraw
      obtain ⟨total, htotal, rfl⟩ := hwithdraw
      simp only [deposited, moved, movement, hsum, hentry, Option.map_some, collateralOf]
      split
      · rw [htotal]
        push_cast
        ring
      · ring
  | repay amount index =>
    obtain ⟨borrows, -, rfl⟩ := map_map_eq_ok_iff.mp hcall
    simp [deposited, moved, movement]

theorem sum_collateralOf {deposits : List ObligationCollateral} {reserve : Pubkey}
    (h : reserve ∉ deposits.map (·.depositReserve)) :
    (deposits.map (collateralOf reserve)).sum = 0 := by
  induction deposits with
  | nil => rfl
  | cons collateral deposits ih =>
    rw [List.map_cons, List.mem_cons, not_or] at h
    have hne : collateral.depositReserve ≠ reserve := fun heq => h.1 heq.symm
    rw [List.map_cons, List.sum_cons, ih h.2, collateralOf, if_neg hne, add_zero]

/-- With unique reserves, the sum for a reserve is the one entry of it. -/
theorem sum_collateralOf_of_mem {deposits : List ObligationCollateral}
    {collateral : ObligationCollateral} (h : (deposits.map (·.depositReserve)).Nodup)
    (hmem : collateral ∈ deposits) :
    (deposits.map (collateralOf collateral.depositReserve)).sum =
      collateral.depositedAmount.toNat := by
  induction deposits with
  | nil => cases hmem
  | cons first deposits ih =>
    rw [List.map_cons, List.nodup_cons] at h
    rw [List.map_cons, List.sum_cons]
    rcases List.mem_cons.mp hmem with rfl | hmem
    · rw [sum_collateralOf h.1, collateralOf, if_pos rfl, add_zero]
    · have hne : first.depositReserve ≠ collateral.depositReserve := fun heq =>
        h.1 (heq ▸ List.mem_map_of_mem hmem)
      rw [ih h.2 hmem, collateralOf, if_neg hne, zero_add]

/-- The collateral of a reserve is what `find_collateral_in_deposits` finds of it. -/
theorem deposited_eq_find (h : WellFormed self) (reserve : Pubkey) :
    self.deposited reserve =
      match self.findCollateralInDeposits reserve with
      | .ok (collateral, _) => (collateral.depositedAmount.toNat : Int)
      | .error _ => 0 := by
  have hnodup := h.deposits
  unfold deposited findCollateralInDeposits findIn
  cases hdeposits : self.deposits with
  | nil => rfl
  | cons first rest =>
    rw [hdeposits] at hnodup
    simp only
    cases hfind : (first :: rest).findIdx? (·.depositReserve = reserve) with
    | none =>
      refine sum_collateralOf fun hmem => ?_
      obtain ⟨collateral, hcollateral, hreserve⟩ := List.mem_map.mp hmem
      have hother := List.findIdx?_eq_none_iff.mp hfind collateral hcollateral
      simp [hreserve] at hother
    | some index =>
      obtain ⟨hlt, hkey, -⟩ := List.findIdx?_eq_some_iff_getElem.mp hfind
      have hreserve : (first :: rest)[index].depositReserve = reserve := by simpa using hkey
      have hsum := sum_collateralOf_of_mem hnodup (List.getElem_mem hlt)
      rw [hreserve] at hsum
      rw [hsum]
      dsimp only
      rw [List.getD_eq_getElem?_getD, List.getElem?_eq_getElem hlt, Option.getD_some]

/-- A run keeps the books: the collateral is what was moved in and not out. -/
structure Books (start : Obligation) (moves : List (Option (Pubkey × Int)))
    (obligation : Obligation) : Prop where
  wellFormed : WellFormed obligation
  deposited_eq : ∀ reserve, obligation.deposited reserve =
    start.deposited reserve + (moves.map (movement reserve)).sum

theorem Books.step {start : Obligation} {moves : List (Option (Pubkey × Int))}
    (h : Books start moves self) (c : Call) :
    Books start (moves ++ [(self.step c).2]) (self.step c).1 := by
  unfold Obligation.step
  split
  · next after hcall =>
    refine ⟨h.wellFormed.call hcall, fun reserve => ?_⟩
    simp [deposited_call hcall, h.deposited_eq, add_assoc]
  · refine ⟨h.wellFormed, fun reserve => ?_⟩
    simp [h.deposited_eq, movement]

/-- **Every run.**  Deposits and borrows stay unique by reserve and ten in all, and
the entry found for a reserve holds what was moved in and not out; where none is
found, everything has been. -/
theorem books_run (obligation : Obligation) (calls : List Call) (reserve : Pubkey)
    (h : WellFormed obligation) :
    let after := Machine.final Obligation.step obligation calls
    let moved := ((Machine.outputs Obligation.step obligation calls).map (movement reserve)).sum
    WellFormed after ∧ obligation.deposited reserve + moved =
      match after.findCollateralInDeposits reserve with
      | .ok (collateral, _) => (collateral.depositedAmount.toNat : Int)
      | .error _ => 0 := by
  have hstep : ∀ (moves : List (Option (Pubkey × Int))) (self : Obligation) (c : Call),
      Books obligation moves self →
        Books obligation (moves ++ [(self.step c).2]) (self.step c).1 :=
    fun _ _ c hbooks => hbooks.step c
  have hrun := Machine.history_invariant hstep ⟨h, fun _ => by simp⟩ calls
  refine ⟨hrun.wellFormed, ?_⟩
  rw [← deposited_eq_find hrun.wellFormed reserve, hrun.deposited_eq reserve]

/-- Calls for twelve reserves, of which ten get in; the third is emptied again. -/
def twelveReserves : List Call :=
  (List.range 12).map (fun i => .findOrAddCollateralToDeposits (Bytes32.fill (UInt8.ofNat i))) ++
    [.deposit 2 50, .deposit 9 7, .withdraw 20 2, .withdraw 30 2]

theorem books_run_twelve :
    let obligation := Obligation.new ⟨5, Pubkey.default, Pubkey.default, [], []⟩
    let after := Machine.final Obligation.step obligation twelveReserves
    after.deposits.length = 9 ∧ WellFormed after := by
  intro obligation after
  have hempty : WellFormed obligation := ⟨List.nodup_nil, List.nodup_nil, Nat.zero_le _⟩
  exact ⟨by decide +kernel, (books_run obligation twelveReserves Pubkey.default hempty).1⟩

end Obligation

end Solend

end Gyrfalcon
