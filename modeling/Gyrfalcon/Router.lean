import Gyrfalcon.Klend
import Gyrfalcon.Lib.Extremum
import Gyrfalcon.Lib.LastWrite
import Gyrfalcon.SaveReserve
import Mathlib.Data.List.Sort

/-!
# Flash-source router (`router/src/lib.rs`)

The tracked reserves, and the choice of the cheapest eligible one.  A
`HashMap` is a list of entries in iteration order, so the order in which the
source happens to iterate is part of the router's state here.
-/

namespace Gyrfalcon

open LastWrite (HashMap)
open Rounding (F64)

/-! ## Fees -/

/-- `u64::MAX` marks a Kamino reserve whose flash loans are disabled. -/
def kaminoFlashLoanDisabled : Nat := u64Max

/-- `round() as u32` of a non-negative float. -/
def roundU32 (q : ℚ) : Nat := min (q + 1 / 2).floor.toNat (2 ^ 32 - 1)

def kaminoFeeBpsFromSf (f64 : F64) (flashLoanFeeSf : Nat) : Option Nat :=
  if flashLoanFeeSf = kaminoFlashLoanDisabled then none
  else some (roundU32 (f64.mul (sfToF64 f64 flashLoanFeeSf) 10000))

/-- Save has no disabled sentinel: a fee of `0` is free. -/
def saveFeeBpsFromWad (f64 : F64) (flashLoanFeeWad : Nat) : Nat :=
  let rate := f64.div (f64.round flashLoanFeeWad) (10 ^ 18)
  roundU32 (f64.mul rate 10000)

/-! ## The router -/

inductive FlashProvider where
  | kamino
  | solend
  deriving DecidableEq, Repr

structure ReserveInfo where
  provider : FlashProvider
  mint : Pubkey
  availableLiquidity : Nat
  feeBps : Option Nat
  deriving DecidableEq, Repr

structure MultiSourceRouter where
  reserves : HashMap Pubkey ReserveInfo
  saveLiveVerified : Bool

namespace MultiSourceRouter

def new : MultiSourceRouter := ⟨∅, false⟩

def addReserve (self : MultiSourceRouter) (reserve : Pubkey) (provider : FlashProvider)
    (mint : Pubkey) (availableLiquidity : Nat) (feeBps : Option Nat) : MultiSourceRouter :=
  { self with
    reserves := self.reserves.insert reserve ⟨provider, mint, availableLiquidity, feeBps⟩ }

def setSaveLiveVerified (self : MultiSourceRouter) (verified : Bool) : MultiSourceRouter :=
  { self with saveLiveVerified := verified }

/-- A no-op on anything that is not a decodable `Reserve`. -/
def observeKaminoAccount (klend : Klend.Interface) (self : MultiSourceRouter) (pubkey : Pubkey)
    (data : List UInt8) : MultiSourceRouter :=
  if data.length < 8 ∨ data.take 8 ≠ klend.reserveDiscriminator then self
  else
    match klend.reserve data with
    | none => self
    | some reserve =>
      { self with
        reserves := self.reserves.insert pubkey
          ⟨.kamino, reserve.mintPubkey, reserve.availableLiquidity,
            kaminoFeeBpsFromSf klend.f64 reserve.flashLoanFeeSf⟩ }

/-- What a Save reserve is tracked as. -/
def saveReserveInfo (f64 : F64) (reserve : Solend.Reserve) : ReserveInfo :=
  ⟨.solend, reserve.liquidity.mintPubkey, reserve.liquidity.availableAmount.toNat,
    some (saveFeeBpsFromWad f64 reserve.config.fees.flashLoanFeeWad.toNat)⟩

/-- A no-op on an error of `unpack_from_slice`; `none` where that panics, and
the process aborts. -/
def observeSaveAccount (f64 : F64) (unpack : List UInt8 → Solend.Unpacked Solend.Reserve)
    (self : MultiSourceRouter) (pubkey : Pubkey) (data : List UInt8) :
    Option MultiSourceRouter :=
  match (unpack data).run with
  | none => none
  | some (.error _) => some self
  | some (.ok reserve) =>
    some { self with reserves := self.reserves.insert pubkey (saveReserveInfo f64 reserve) }

/-- The depth of the reserve a source names. -/
def depthOf (self : MultiSourceRouter) (source : FlashSource) : Nat :=
  ((self.reserves.lookup source.reserve).map ReserveInfo.availableLiquidity).getD 0

/-- Lowest fee, then deepest liquidity. -/
def compareRanked (self : MultiSourceRouter) (a b : FlashSource) : Ordering :=
  (compare a.feeBps b.feeBps).then (compare (self.depthOf b) (self.depthOf a))

/-- All sources of the mint and depth, the ones not verified live included. -/
def rankAllSources (self : MultiSourceRouter) (mint : Pubkey) (amount : Nat) : List FlashSource :=
  let candidates :=
    ((self.reserves.entries.filter fun e => e.2.mint = mint).filter fun e =>
      amount ≤ e.2.availableLiquidity).filterMap fun e =>
        e.2.feeBps.map fun feeBps => (⟨.kamino, e.1, feeBps⟩ : FlashSource)
  -- `sort_by` is stable
  candidates.insertionSort fun a b => self.compareRanked a b ≠ .gt

/-- The reserves that survive the four filters of `route`, with their fee. -/
def eligible (self : MultiSourceRouter) (mint : Pubkey) (amount : Nat) :
    List (Pubkey × ReserveInfo × Nat) :=
  (((self.reserves.entries.filter fun e => e.2.mint = mint).filter fun e =>
      amount ≤ e.2.availableLiquidity).filter fun e =>
        e.2.provider ≠ .solend || self.saveLiveVerified).filterMap fun e =>
          e.2.feeBps.map fun feeBps => (e.1, e.2, feeBps)

/-- Kamino before Solend. -/
def compareProviders : FlashProvider → FlashProvider → Ordering
  | .kamino, .solend => .lt
  | .solend, .kamino => .gt
  | _, _ => .eq

/-- Lowest fee, then Kamino before Solend, then deepest liquidity. -/
def compareSources (a b : Pubkey × ReserveInfo × Nat) : Ordering :=
  ((compare a.2.2 b.2.2).then (compareProviders a.2.1.provider b.2.1.provider)).then
    (compare b.2.1.availableLiquidity a.2.1.availableLiquidity)

def route (self : MultiSourceRouter) : FlashSourceRouter := fun mint amount =>
  (Extremum.minBy compareSources (self.eligible mint amount)).map fun source =>
    ⟨.kamino, source.1, source.2.2⟩

/-! ## What a route is -/

/-- The reserve `key` can fund `amount` of `mint` at `feeBps`. -/
structure CanFund (router : MultiSourceRouter) (mint : Pubkey) (amount : Nat) (key : Pubkey)
    (info : ReserveInfo) (feeBps : Nat) : Prop where
  tracked : router.reserves.lookup key = some info
  mint : info.mint = mint
  liquidity : amount ≤ info.availableLiquidity
  verified : info.provider = .solend → router.saveLiveVerified = true
  enabled : info.feeBps = some feeBps

theorem mem_eligible_iff (self : MultiSourceRouter) (mint : Pubkey) (amount : Nat) (key : Pubkey)
    (info : ReserveInfo) (feeBps : Nat) :
    (key, info, feeBps) ∈ self.eligible mint amount ↔ self.CanFund mint amount key info feeBps := by
  have htracked : (⟨key, info⟩ : Sigma fun _ : Pubkey => ReserveInfo) ∈ self.reserves.entries ↔
      self.reserves.lookup key = some info := AList.mem_lookup_iff.symm
  simp only [eligible, List.mem_filterMap, List.mem_filter, Option.map_eq_some_iff,
    decide_eq_true_eq, Bool.or_eq_true]
  constructor
  · rintro ⟨⟨key', info'⟩, ⟨⟨⟨hmem, hmint⟩, hliq⟩, hsave⟩, fee, hfee, heq⟩
    simp only [Prod.mk.injEq] at heq
    obtain ⟨rfl, rfl, rfl⟩ := heq
    exact ⟨htracked.mp hmem, hmint, hliq, fun h => by simpa [h] using hsave, hfee⟩
  · intro h
    refine ⟨⟨key, info⟩, ⟨⟨⟨htracked.mpr h.tracked, h.mint⟩, h.liquidity⟩, ?_⟩, feeBps, h.enabled,
      rfl⟩
    by_cases hp : info.provider = .solend
    · exact Or.inr (h.verified hp)
    · exact Or.inl hp

/-- A route names a tracked reserve that can fund the amount. -/
theorem canFund_of_route {self : MultiSourceRouter} {mint : Pubkey} {amount : Nat}
    {source : FlashSource} (h : self.route mint amount = some source) :
    ∃ info, self.CanFund mint amount source.reserve info source.feeBps := by
  obtain ⟨⟨key, info, feeBps⟩, hmin, rfl⟩ := Option.map_eq_some_iff.mp h
  exact ⟨info, (mem_eligible_iff _ _ _ _ _ _).mp (Extremum.mem_of_minBy _ hmin)⟩

/-- There is a route exactly when some reserve can fund the amount. -/
theorem route_isSome_iff (self : MultiSourceRouter) (mint : Pubkey) (amount : Nat) :
    (self.route mint amount).isSome ↔
      ∃ key info feeBps, self.CanFund mint amount key info feeBps := by
  rw [route, Option.isSome_map, Extremum.minBy_isSome, Ne, List.eq_nil_iff_forall_not_mem]
  simp only [not_forall, not_not, Prod.exists, mem_eligible_iff]

/-! ## Iteration order -/

/-- Kamino before Solend, as numbers. -/
def providerRank : FlashProvider → Nat
  | .kamino => 0
  | .solend => 1

/-- The comparator is a lexicographic order on fee, provider and depth. -/
theorem compareSources_eq : compareSources =
    compareLex
      (compareLex (compareOn fun a => a.2.2) (compareOn fun a => providerRank a.2.1.provider))
      fun a b => compareOn
        (fun a : Pubkey × ReserveInfo × Nat => a.2.1.availableLiquidity) b a := by
  have hproviders : ∀ p q, compareProviders p q = compare (providerRank p) (providerRank q) := by
    intro p q
    cases p <;> cases q <;> rfl
  funext a b
  simp only [compareSources, compareLex, compareOn, hproviders]

instance : Std.TransCmp compareSources := by
  rw [compareSources_eq]
  infer_instance

/-- An eligible reserve that no other eligible one beats. -/
def Cheapest (self : MultiSourceRouter) (mint : Pubkey) (amount : Nat)
    (source : Pubkey × ReserveInfo × Nat) : Prop :=
  Extremum.Least compareSources (self.eligible mint amount) source

/-- The same router, with its entries iterated in another order. -/
def SameEntries (self other : MultiSourceRouter) : Prop :=
  other.saveLiveVerified = self.saveLiveVerified ∧
    other.reserves.entries.Perm self.reserves.entries

variable {self other : MultiSourceRouter} {mint : Pubkey} {amount : Nat}

theorem SameEntries.refl (self : MultiSourceRouter) : self.SameEntries self :=
  ⟨rfl, List.Perm.refl _⟩

theorem SameEntries.eligible_perm (h : self.SameEntries other) (mint : Pubkey) (amount : Nat) :
    (other.eligible mint amount).Perm (self.eligible mint amount) := by
  unfold eligible
  rw [h.1]
  exact (((h.2.filter _).filter _).filter _).filterMap _

/-- An eligible source is determined by its key. -/
theorem eq_of_mem_eligible {a b : Pubkey × ReserveInfo × Nat} (ha : a ∈ self.eligible mint amount)
    (hb : b ∈ self.eligible mint amount) (hkey : a.1 = b.1) : a = b := by
  obtain ⟨key, info, feeBps⟩ := a
  obtain ⟨key', info', feeBps'⟩ := b
  obtain rfl : key = key' := hkey
  have ha := (mem_eligible_iff _ _ _ _ _ _).mp ha
  have hb := (mem_eligible_iff _ _ _ _ _ _).mp hb
  obtain rfl : info = info' := Option.some.inj (ha.tracked.symm.trans hb.tracked)
  obtain rfl : feeBps = feeBps' := Option.some.inj (ha.enabled.symm.trans hb.enabled)
  rfl

/-- In some order, a given eligible reserve comes first. -/
theorem exists_order_first {source : Pubkey × ReserveInfo × Nat}
    (h : source ∈ self.eligible mint amount) :
    ∃ other, self.SameEntries other ∧ ∃ rest, other.eligible mint amount = source :: rest := by
  obtain ⟨key, info, feeBps⟩ := source
  have hfund := (mem_eligible_iff _ _ _ _ _ _).mp h
  have hmem : (⟨key, info⟩ : Sigma fun _ : Pubkey => ReserveInfo) ∈ self.reserves.entries :=
    AList.mem_lookup_iff.mp hfund.tracked
  obtain ⟨before, later, hsplit⟩ := List.append_of_mem hmem
  have hperm : (⟨key, info⟩ :: (before ++ later)).Perm self.reserves.entries := by
    rw [hsplit]
    exact List.perm_middle.symm
  let other : MultiSourceRouter :=
    ⟨⟨⟨key, info⟩ :: (before ++ later), (List.perm_nodupKeys hperm).mpr self.reserves.nodupKeys⟩,
      self.saveLiveVerified⟩
  have hsame : self.SameEntries other := ⟨rfl, hperm⟩
  have hsave : (info.provider ≠ .solend || self.saveLiveVerified) = true := by
    by_cases hp : info.provider = .solend
    · simp [hfund.verified hp]
    · simp [hp]
  refine ⟨other, hsame, ?_⟩
  unfold eligible
  rw [List.filter_cons_of_pos (by simpa using hfund.mint),
    List.filter_cons_of_pos (by simpa using hfund.liquidity),
    List.filter_cons_of_pos (by exact hsave),
    List.filterMap_cons_some (by rw [hfund.enabled]; rfl)]
  exact ⟨_, rfl⟩

/-- In some order, a cheapest reserve comes first and is the one routed. -/
theorem exists_route_of_cheapest {source : Pubkey × ReserveInfo × Nat}
    (h : self.Cheapest mint amount source) :
    ∃ other, self.SameEntries other ∧
      other.route mint amount = some ⟨.kamino, source.1, source.2.2⟩ := by
  obtain ⟨other, hsame, rest, hrest⟩ := exists_order_first h.1
  have hmin : Extremum.minBy compareSources (other.eligible mint amount) = some source := by
    rw [Extremum.minBy_eq_some_iff]
    refine ⟨[], rest, hrest, by simp, fun b hb => h.2 b ?_⟩
    rw [← (hsame.eligible_perm mint amount).mem_iff, hrest]
    exact List.mem_cons_of_mem _ hb
  refine ⟨other, hsame, ?_⟩
  rw [route, hmin]
  rfl

/-- **When the selection is deterministic.**  `route` names the same source in
every iteration order, if and only if no two reserves tie for the best. -/
theorem route_order_independent_iff (self : MultiSourceRouter) (mint : Pubkey) (amount : Nat) :
    (∀ other, self.SameEntries other → other.route mint amount = self.route mint amount) ↔
      ∀ a b, self.Cheapest mint amount a → self.Cheapest mint amount b → a.1 = b.1 := by
  constructor
  · intro h a b ha hb
    obtain ⟨other, hother, hroute⟩ := exists_route_of_cheapest ha
    obtain ⟨other', hother', hroute'⟩ := exists_route_of_cheapest hb
    have heq := (h other hother).trans (h other' hother').symm
    rw [hroute, hroute'] at heq
    exact congrArg FlashSource.reserve (Option.some.inj heq)
  · intro h other hother
    have hunique : ∀ a b, Extremum.Least compareSources (self.eligible mint amount) a →
        Extremum.Least compareSources (self.eligible mint amount) b → a = b := fun a b ha hb =>
      eq_of_mem_eligible ha.1 hb.1 (h a b ha hb)
    rw [route, route, Extremum.minBy_perm (hother.eligible_perm mint amount).symm hunique]

/-- Two Kamino reserves of one fee and one depth, tracked in either order: the
order decides which of the two is routed. -/
theorem route_depends_on_order :
    let track (self : MultiSourceRouter) (reserve : Pubkey) :=
      self.addReserve reserve .kamino (Bytes32.fill 9) 100 (some 5)
    let forward := track (track new (Bytes32.fill 1)) (Bytes32.fill 2)
    let backward := track (track new (Bytes32.fill 2)) (Bytes32.fill 1)
    forward.SameEntries backward ∧
      forward.route (Bytes32.fill 9) 50 ≠ backward.route (Bytes32.fill 9) 50 := by
  intro track forward backward
  refine ⟨⟨rfl, ?_⟩, by decide +kernel⟩
  decide +kernel

end MultiSourceRouter

end Gyrfalcon
