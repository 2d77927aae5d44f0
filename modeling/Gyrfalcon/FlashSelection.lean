import Gyrfalcon.Router

/-!
# The selected flash source, over whole runs of the router

A router is what its calls made of it: the last call that stored a reserve
under a key decides what is tracked there.  Read off the calls, the routed
source is the best of the eligible ones, and rounding fees to basis points
costs at most one of them.
-/

namespace Gyrfalcon

open LastWrite

/-! ## Calls -/

/-- The calls that change a router. -/
inductive RouterCall where
  | addReserve (reserve : Pubkey) (provider : FlashProvider) (mint : Pubkey)
      (availableLiquidity : Nat) (feeBps : Option Nat)
  | observeKaminoAccount (pubkey : Pubkey) (data : List UInt8)
  | observeSaveAccount (pubkey : Pubkey) (data : List UInt8)
  | setSaveLiveVerified (verified : Bool)
  deriving DecidableEq, Repr

section

variable (klend : Klend.Interface) (unpack : List UInt8 → Solend.Unpacked Solend.Reserve)

namespace MultiSourceRouter

/-- One call; `none` is a panic. -/
def call (self : MultiSourceRouter) : RouterCall → Option MultiSourceRouter
  | .addReserve reserve provider mint availableLiquidity feeBps =>
    some (self.addReserve reserve provider mint availableLiquidity feeBps)
  | .observeKaminoAccount pubkey data => some (self.observeKaminoAccount klend pubkey data)
  | .observeSaveAccount pubkey data => self.observeSaveAccount klend.f64 unpack pubkey data
  | .setSaveLiveVerified verified => some (self.setSaveLiveVerified verified)

/-- The router after a sequence of calls from `new()`. -/
def run (calls : List RouterCall) : Option MultiSourceRouter :=
  calls.foldlM (call klend unpack) new

end MultiSourceRouter

namespace RouterCall

/-- The Kamino reserve a call delivers. -/
def kaminoReserve (data : List UInt8) : Option Klend.Reserve :=
  if data.length < 8 ∨ data.take 8 ≠ klend.reserveDiscriminator then none else klend.reserve data

/-- The Save reserve a call delivers. -/
def saveReserve (data : List UInt8) : Option Solend.Reserve :=
  match (unpack data).run with
  | some (.ok reserve) => some reserve
  | _ => none

/-- What a call stores, and where. -/
def stores : RouterCall → Option (Pubkey × ReserveInfo)
  | .addReserve reserve provider mint availableLiquidity feeBps =>
    some (reserve, ⟨provider, mint, availableLiquidity, feeBps⟩)
  | .observeKaminoAccount pubkey data =>
    (kaminoReserve klend data).map fun reserve =>
      (pubkey, ⟨.kamino, reserve.mintPubkey, reserve.availableLiquidity,
        kaminoFeeBpsFromSf klend.f64 reserve.flashLoanFeeSf⟩)
  | .observeSaveAccount pubkey data =>
    (saveReserve unpack data).map fun reserve =>
      (pubkey, MultiSourceRouter.saveReserveInfo klend.f64 reserve)
  | .setSaveLiveVerified _ => none

/-- What a call sets the verification flag to. -/
def verifies : RouterCall → Option Bool
  | .setSaveLiveVerified verified => some verified
  | _ => none

/-- What is tracked under `key` after the calls: what the last of them stored. -/
def tracked (calls : List RouterCall) (key : Pubkey) : Option ReserveInfo :=
  (writesTo (stores klend unpack) key calls).getLast?

/-- Whether Save is live after the calls. -/
def saveLive (calls : List RouterCall) : Bool := (calls.filterMap verifies).getLast?.getD false

end RouterCall

end

namespace MultiSourceRouter

variable {klend : Klend.Interface} {unpack : List UInt8 → Solend.Unpacked Solend.Reserve}

theorem call_eq_some {self router : MultiSourceRouter} {c : RouterCall}
    (h : self.call klend unpack c = some router) :
    router.reserves = write (RouterCall.stores klend unpack) self.reserves c ∧
      router.saveLiveVerified = c.verifies.getD self.saveLiveVerified := by
  cases c with
  | addReserve reserve provider mint availableLiquidity feeBps =>
    cases h
    exact ⟨rfl, rfl⟩
  | observeKaminoAccount pubkey data =>
    cases h
    simp only [observeKaminoAccount, write, RouterCall.stores, RouterCall.kaminoReserve]
    split
    · exact ⟨rfl, rfl⟩
    · cases klend.reserve data with
      | none => exact ⟨rfl, rfl⟩
      | some reserve => exact ⟨rfl, rfl⟩
  | observeSaveAccount pubkey data =>
    simp only [call, observeSaveAccount] at h
    simp only [write, RouterCall.stores, RouterCall.saveReserve]
    split at h
    · cases h
    · next hunpack =>
      cases h
      rw [hunpack]
      exact ⟨rfl, rfl⟩
    · next hunpack =>
      cases h
      rw [hunpack]
      exact ⟨rfl, rfl⟩
  | setSaveLiveVerified verified =>
    cases h
    exact ⟨rfl, rfl⟩

/-- A run leaves behind what its calls stored and set. -/
theorem run_eq_some {calls : List RouterCall} {router : MultiSourceRouter}
    (h : run klend unpack calls = some router) :
    router.reserves = calls.foldl (write (RouterCall.stores klend unpack)) ∅ ∧
      router.saveLiveVerified = RouterCall.saveLive calls := by
  induction calls using List.reverseRecOn generalizing router with
  | nil =>
    cases h
    exact ⟨rfl, rfl⟩
  | append_singleton calls c ih =>
    rw [run, List.foldlM_append] at h
    obtain ⟨before, hbefore, hcall⟩ := Option.bind_eq_some_iff.mp h
    obtain ⟨hreserves, hsave⟩ := ih hbefore
    have hcall : before.call klend unpack c = some router := by simpa using hcall
    obtain ⟨hreserves', hsave'⟩ := call_eq_some hcall
    constructor
    · rw [hreserves', hreserves, List.foldl_append]
      rfl
    · rw [hsave', hsave, RouterCall.saveLive, RouterCall.saveLive, List.filterMap_append]
      cases hc : c.verifies with
      | none => simp [hc]
      | some verified => simp [hc]

theorem lookup_run {calls : List RouterCall} {router : MultiSourceRouter}
    (h : run klend unpack calls = some router) (key : Pubkey) :
    router.reserves.lookup key = RouterCall.tracked klend unpack calls key := by
  rw [(run_eq_some h).1, lookup_foldl_write_empty]
  rfl

end MultiSourceRouter

/-! ## The best eligible reserve -/

/-- After the calls, `key` can fund `amount` of `mint` at `feeBps`. -/
structure Eligible (klend : Klend.Interface)
    (unpack : List UInt8 → Solend.Unpacked Solend.Reserve) (calls : List RouterCall)
    (mint : Pubkey) (amount : Nat) (key : Pubkey) (info : ReserveInfo) (feeBps : Nat) : Prop where
  tracked : RouterCall.tracked klend unpack calls key = some info
  mint : info.mint = mint
  liquidity : amount ≤ info.availableLiquidity
  live : info.provider = .kamino ∨ RouterCall.saveLive calls = true
  enabled : info.feeBps = some feeBps

/-- Strictly better: a lower fee, then Kamino before Solend, then more liquidity. -/
def Better (a b : ReserveInfo × Nat) : Prop :=
  a.2 < b.2 ∨ a.2 = b.2 ∧
    (a.1.provider = .kamino ∧ b.1.provider = .solend ∨
      a.1.provider = b.1.provider ∧ b.1.availableLiquidity < a.1.availableLiquidity)

namespace MultiSourceRouter

variable {klend : Klend.Interface} {unpack : List UInt8 → Solend.Unpacked Solend.Reserve}
variable {calls : List RouterCall} {router other : MultiSourceRouter}

/-- The comparator of `route` is this order. -/
theorem compareSources_eq_gt_iff (a b : Pubkey × ReserveInfo × Nat) :
    compareSources a b = .gt ↔ Better b.2 a.2 := by
  simp only [compareSources, Better, Ordering.then_eq_gt, Ordering.then_eq_eq, Nat.compare_eq_gt,
    Nat.compare_eq_eq]
  cases ha : a.2.1.provider <;> cases hb : b.2.1.provider <;> simp [compareProviders] <;> omega

theorem SameEntries.lookup_eq (h : router.SameEntries other) (key : Pubkey) :
    other.reserves.lookup key = router.reserves.lookup key :=
  AList.perm_lookup h.2

theorem SameEntries.canFund_iff (h : router.SameEntries other) {mint : Pubkey} {amount : Nat}
    {key : Pubkey} {info : ReserveInfo} {feeBps : Nat} :
    other.CanFund mint amount key info feeBps ↔ router.CanFund mint amount key info feeBps := by
  rw [← mem_eligible_iff, ← mem_eligible_iff, (h.eligible_perm mint amount).mem_iff]

/-- What can fund in any order of iteration is what the calls make eligible. -/
theorem canFund_iff_eligible (hrun : run klend unpack calls = some router)
    (hother : router.SameEntries other) {mint : Pubkey} {amount : Nat} {key : Pubkey}
    {info : ReserveInfo} {feeBps : Nat} :
    other.CanFund mint amount key info feeBps ↔
      Eligible klend unpack calls mint amount key info feeBps := by
  have hlookup := (hother.lookup_eq key).trans (lookup_run hrun key)
  have hsave : other.saveLiveVerified = RouterCall.saveLive calls :=
    hother.1.trans (run_eq_some hrun).2
  constructor
  · intro h
    refine ⟨hlookup.symm.trans h.tracked, h.mint, h.liquidity, ?_, h.enabled⟩
    cases hp : info.provider with
    | kamino => exact Or.inl rfl
    | solend => exact Or.inr (hsave.symm.trans (h.verified hp))
  · intro h
    refine ⟨hlookup.trans h.tracked, h.mint, h.liquidity, fun hp => ?_, h.enabled⟩
    rcases h.live with hk | hlive
    · rw [hp] at hk
      cases hk
    · exact hsave.trans hlive

/-- The routed source, in any order of iteration. -/
theorem route_least {mint : Pubkey} {amount : Nat} {source : FlashSource}
    (h : other.route mint amount = some source) :
    ∃ info, other.CanFund mint amount source.reserve info source.feeBps ∧
      ∀ key info' feeBps, other.CanFund mint amount key info' feeBps →
        ¬ Better (info', feeBps) (info, source.feeBps) := by
  obtain ⟨⟨key, info, feeBps⟩, hmin, rfl⟩ := Option.map_eq_some_iff.mp h
  have hleast := Extremum.least_of_minBy hmin
  refine ⟨info, (mem_eligible_iff _ _ _ _ _ _).mp hleast.1, ?_⟩
  intro key' info' feeBps' hfund hbetter
  refine hleast.2 (key', info', feeBps') ((mem_eligible_iff _ _ _ _ _ _).mpr hfund) ?_
  exact (compareSources_eq_gt_iff _ _).mpr hbetter

/-- In every order of iteration `key` is routed, if and only if it can fund the
amount and beats every other reserve that can. -/
theorem routes_in_every_order_iff (router : MultiSourceRouter) (mint : Pubkey) (amount : Nat)
    (key : Pubkey) :
    (∀ other, router.SameEntries other →
        ((other.route mint amount).any fun source => source.reserve = key) = true) ↔
      ∃ info feeBps, router.CanFund mint amount key info feeBps ∧
        ∀ key' info' feeBps', router.CanFund mint amount key' info' feeBps' → key' ≠ key →
          Better (info, feeBps) (info', feeBps') := by
  constructor
  · intro h
    obtain ⟨source, hroute, hkey⟩ :=
      (Option.any_eq_true _ _).mp (h router (SameEntries.refl _))
    obtain ⟨info, hfund, hbest⟩ := route_least hroute
    rw [of_decide_eq_true hkey] at hfund
    refine ⟨info, source.feeBps, hfund, ?_⟩
    intro key' info' feeBps' hfund' hne
    by_contra hbetter
    have hcheapest : router.Cheapest mint amount (key', info', feeBps') := by
      refine ⟨(mem_eligible_iff _ _ _ _ _ _).mpr hfund', ?_⟩
      rintro ⟨key'', info'', feeBps''⟩ hmem
      refine Extremum.le_trans_of_ne_gt (b := (key, info, source.feeBps)) ?_ ?_
      · rw [Ne, compareSources_eq_gt_iff]
        exact hbetter
      · rw [Ne, compareSources_eq_gt_iff]
        exact hbest key'' info'' feeBps'' ((mem_eligible_iff _ _ _ _ _ _).mp hmem)
    obtain ⟨other, hother, hroute'⟩ := exists_route_of_cheapest hcheapest
    have hkey' := h other hother
    rw [hroute'] at hkey'
    exact hne (of_decide_eq_true hkey')
  · rintro ⟨info, feeBps, hfund, hbest⟩ other hother
    have hsome := (route_isSome_iff other mint amount).mpr
      ⟨key, info, feeBps, hother.canFund_iff.mpr hfund⟩
    obtain ⟨source, hroute⟩ := Option.isSome_iff_exists.mp hsome
    obtain ⟨info', hfund', hleast⟩ := route_least hroute
    rw [hroute]
    refine decide_eq_true ?_
    by_contra hne
    exact hleast key info feeBps (hother.canFund_iff.mpr hfund)
      (hbest source.reserve info' source.feeBps (hother.canFund_iff.mp hfund') hne)

/-- **Optimal flash source.**  After any calls, in any order of iteration, there
is a route exactly when a reserve is eligible, and it names one that no
eligible reserve beats. -/
theorem route_optimal (klend : Klend.Interface)
    (unpack : List UInt8 → Solend.Unpacked Solend.Reserve) (calls : List RouterCall)
    (router other : MultiSourceRouter) (hrun : run klend unpack calls = some router)
    (hother : router.SameEntries other) (mint : Pubkey) (amount : Nat) :
    (other.route mint amount = none ↔
        ¬ ∃ key info feeBps, Eligible klend unpack calls mint amount key info feeBps) ∧
      ∀ source, other.route mint amount = some source →
        ∃ info, Eligible klend unpack calls mint amount source.reserve info source.feeBps ∧
          ∀ key info' feeBps, Eligible klend unpack calls mint amount key info' feeBps →
            ¬ Better (info', feeBps) (info, source.feeBps) := by
  constructor
  · rw [← Option.not_isSome_iff_eq_none, route_isSome_iff]
    simp only [canFund_iff_eligible hrun hother]
  · intro source hroute
    obtain ⟨info, hfund, hbest⟩ := route_least hroute
    refine ⟨info, (canFund_iff_eligible hrun hother).mp hfund, ?_⟩
    intro key info' feeBps heligible
    exact hbest key info' feeBps ((canFund_iff_eligible hrun hother).mpr heligible)

/-- A Kamino reserve is observed, then tracked again with its flash loans
disabled: the Save reserve is left to route to. -/
theorem route_optimal_overwritten :
    let calls : List RouterCall :=
      [.observeKaminoAccount (Bytes32.fill 1) [43, 242, 204, 202, 26, 247, 59, 127, 2, 1],
        .addReserve (Bytes32.fill 3) .solend (Bytes32.fill 2) 100 (some 0),
        .setSaveLiveVerified true,
        .addReserve (Bytes32.fill 1) .kamino (Bytes32.fill 2) 500 none]
    ∃ router, run Klend.sample Solend.Reserve.unpackFromSlice calls = some router ∧
      router.route (Bytes32.fill 2) 50 = some ⟨.kamino, Bytes32.fill 3, 0⟩ ∧
      ∃ info, Eligible Klend.sample Solend.Reserve.unpackFromSlice calls (Bytes32.fill 2) 50
          (Bytes32.fill 3) info 0 ∧
        ∀ key info' feeBps, Eligible Klend.sample Solend.Reserve.unpackFromSlice calls
          (Bytes32.fill 2) 50 key info' feeBps → ¬ Better (info', feeBps) (info, 0) := by
  intro calls
  have hroute : (run Klend.sample Solend.Reserve.unpackFromSlice calls).bind
      (fun router => router.route (Bytes32.fill 2) 50) = some ⟨.kamino, Bytes32.fill 3, 0⟩ := by
    decide +kernel
  obtain ⟨router, hrun, hroute⟩ := Option.bind_eq_some_iff.mp hroute
  have hoptimal := route_optimal _ _ calls router router hrun (SameEntries.refl _)
    (Bytes32.fill 2) 50
  exact ⟨router, hrun, hroute, hoptimal.2 _ hroute⟩

end MultiSourceRouter

/-! ## Rounding to basis points -/

/-- The nearest integer, halves away from zero. -/
def roundHalf (q : ℚ) : Nat := (q + 1 / 2).floor.toNat

theorem roundHalf_bounds {q : ℚ} (h : 0 ≤ q) :
    (roundHalf q : ℚ) ≤ q + 1 / 2 ∧ q + 1 / 2 < roundHalf q + 1 := by
  rw [roundHalf, cast_floor_toNat (by linarith)]
  exact ⟨Int.floor_le _, Int.lt_floor_add_one _⟩

/-- What is far below `2 ^ 32` does not saturate. -/
theorem roundU32_eq {q : ℚ} (h : 0 ≤ q) (hle : q ≤ 10 ^ 7) :
    roundU32 q = roundHalf q ∧ roundHalf q < 2 ^ 32 := by
  have hbound := (roundHalf_bounds h).1
  have hlt : (roundHalf q : ℚ) < (2 ^ 32 : Nat) := by
    have hpow : ((2 ^ 32 : Nat) : ℚ) = 4294967296 := by norm_num
    rw [hpow]
    linarith
  have hlt : roundHalf q < 2 ^ 32 := Nat.cast_lt.mp hlt
  refine ⟨?_, hlt⟩
  unfold roundU32
  unfold roundHalf at hlt ⊢
  omega

/-- Kamino's rate, a fraction of 60 bits. -/
theorem sfToRat_bounds {sf : Nat} (h : sf ≤ u64Max) : 0 ≤ sfToRat sf ∧ sfToRat sf ≤ 100 := by
  have hle : (sf : ℚ) ≤ (u64Max : Nat) := Nat.cast_le.mpr h
  have hmax : ((u64Max : Nat) : ℚ) ≤ 100 * 2 ^ 60 := by norm_num [u64Max]
  refine ⟨sfToRat_nonneg sf, ?_⟩
  rw [sfToRat, div_le_iff₀ (by positivity)]
  exact hle.trans hmax

/-- Save's rate, a wad. -/
def wadToRat (wad : Nat) : ℚ := wad / 10 ^ 18

theorem wadToRat_bounds {wad : Nat} (h : wad ≤ u64Max) :
    0 ≤ wadToRat wad ∧ wadToRat wad ≤ 100 := by
  have hle : (wad : ℚ) ≤ (u64Max : Nat) := Nat.cast_le.mpr h
  have hmax : ((u64Max : Nat) : ℚ) ≤ 100 * 10 ^ 18 := by norm_num [u64Max]
  unfold wadToRat
  refine ⟨by positivity, ?_⟩
  rw [div_le_iff₀ (by positivity)]
  exact hle.trans hmax

section

variable (klend : Klend.Interface) (unpack : List UInt8 → Solend.Unpacked Solend.Reserve)

namespace RouterCall

/-- An observed reserve: what is stored, and the true fee rate. -/
def observed : RouterCall → Option (Pubkey × ReserveInfo × ℚ)
  | .observeKaminoAccount pubkey data =>
    (kaminoReserve klend data).map fun reserve =>
      (pubkey, ⟨.kamino, reserve.mintPubkey, reserve.availableLiquidity,
        kaminoFeeBpsFromSf klend.f64 reserve.flashLoanFeeSf⟩, sfToRat reserve.flashLoanFeeSf)
  | .observeSaveAccount pubkey data =>
    (saveReserve unpack data).map fun reserve =>
      (pubkey, MultiSourceRouter.saveReserveInfo klend.f64 reserve,
        wadToRat reserve.config.fees.flashLoanFeeWad.toNat)
  | _ => none

/-- A call that does not put a reserve in by hand. -/
def isObservation : RouterCall → Bool
  | .addReserve _ _ _ _ _ => false
  | _ => true

/-- The reserve last observed under `key`, with its true fee rate. -/
def lastObserved (calls : List RouterCall) (key : Pubkey) : Option (ReserveInfo × ℚ) :=
  (writesTo (observed klend unpack) key calls).getLast?

theorem stores_of_isObservation {c : RouterCall} (h : c.isObservation = true) :
    c.stores klend unpack = (c.observed klend unpack).map fun o => (o.1, o.2.1) := by
  cases c with
  | addReserve reserve provider mint availableLiquidity feeBps => cases h
  | observeKaminoAccount pubkey data =>
    rw [stores, observed, Option.map_map]
    rfl
  | observeSaveAccount pubkey data =>
    rw [stores, observed, Option.map_map]
    rfl
  | setSaveLiveVerified verified => rfl

/-- Where all reserves are observed, what is tracked was observed. -/
theorem tracked_eq {calls : List RouterCall} (h : ∀ c ∈ calls, c.isObservation = true)
    (key : Pubkey) :
    tracked klend unpack calls key = (lastObserved klend unpack calls key).map Prod.fst := by
  have hwrites : writesTo (stores klend unpack) key calls =
      (writesTo (observed klend unpack) key calls).map Prod.fst := by
    rw [← writesTo_map]
    refine List.filterMap_congr fun c hc => ?_
    rw [written, written, stores_of_isObservation klend unpack (h c hc)]
  rw [tracked, hwrites, List.getLast?_map]
  rfl

end RouterCall

end

/-- In exact arithmetic both conversions round the true rate. -/
theorem kaminoFeeBpsFromSf_eq {sf : Nat} (h : sf < u64Max) :
    kaminoFeeBpsFromSf .exact sf = some (roundHalf (sfToRat sf * 10000)) ∧
      roundHalf (sfToRat sf * 10000) < 2 ^ 32 := by
  obtain ⟨hnonneg, hle⟩ := sfToRat_bounds (Nat.le_of_lt h)
  obtain ⟨hround, hlt⟩ := roundU32_eq (q := sfToRat sf * 10000) (by linarith) (by linarith)
  have hne : ¬ sf = kaminoFlashLoanDisabled := Nat.ne_of_lt h
  refine ⟨?_, hlt⟩
  rw [← hround]
  exact if_neg hne

theorem saveFeeBpsFromWad_eq {wad : Nat} (h : wad ≤ u64Max) :
    saveFeeBpsFromWad .exact wad = roundHalf (wadToRat wad * 10000) ∧
      roundHalf (wadToRat wad * 10000) < 2 ^ 32 := by
  obtain ⟨hnonneg, hle⟩ := wadToRat_bounds h
  exact roundU32_eq (q := wadToRat wad * 10000) (by linarith) (by linarith)

/-- `klend` decodes `flash_loan_fee_sf` to a `u64`. -/
def Klend.Interface.FeeIsU64 (klend : Klend.Interface) : Prop :=
  ∀ data reserve, klend.reserve data = some reserve → reserve.flashLoanFeeSf ≤ u64Max

section

variable {klend : Klend.Interface} {unpack : List UInt8 → Solend.Unpacked Solend.Reserve}

namespace RouterCall

/-- A Kamino fee that is not the sentinel is the true rate rounded. -/
theorem fee_of_sf {sf feeBps : Nat} (hle : sf ≤ u64Max)
    (hfee : kaminoFeeBpsFromSf .exact sf = some feeBps) :
    feeBps = roundHalf (sfToRat sf * 10000) ∧ sfToRat sf ≠ sfToRat u64Max := by
  have hne : sf ≠ u64Max := by
    intro hsentinel
    have hnone : kaminoFeeBpsFromSf .exact sf = none := if_pos hsentinel
    rw [hnone] at hfee
    cases hfee
  have hround := (kaminoFeeBpsFromSf_eq (Nat.lt_of_le_of_ne hle hne)).1
  refine ⟨Option.some.inj (hfee.symm.trans hround), fun hrate => hne ?_⟩
  unfold sfToRat at hrate
  rw [div_left_inj' (by positivity)] at hrate
  exact Nat.cast_injective hrate

/-- An observed fee is the true rate rounded, and no sentinel. -/
theorem fee_of_observed (hexact : klend.f64 = .exact) (hsf : klend.FeeIsU64) {c : RouterCall}
    {key : Pubkey} {info : ReserveInfo} {rate : ℚ} {feeBps : Nat}
    (h : c.observed klend unpack = some (key, info, rate))
    (hfee : info.feeBps = some feeBps) :
    0 ≤ rate ∧ feeBps = roundHalf (rate * 10000) ∧
      (info.provider = .kamino → rate ≠ sfToRat u64Max) := by
  cases c with
  | addReserve reserve provider mint availableLiquidity feeBps => cases h
  | setSaveLiveVerified verified => cases h
  | observeKaminoAccount pubkey data =>
    obtain ⟨reserve, hreserve, heq⟩ := Option.map_eq_some_iff.mp h
    cases heq
    have hle : reserve.flashLoanFeeSf ≤ u64Max := by
      unfold kaminoReserve at hreserve
      split at hreserve
      · cases hreserve
      · exact hsf data reserve hreserve
    rw [hexact] at hfee
    obtain ⟨hround, hne⟩ := fee_of_sf hle hfee
    exact ⟨(sfToRat_bounds hle).1, hround, fun _ => hne⟩
  | observeSaveAccount pubkey data =>
    obtain ⟨reserve, hreserve, heq⟩ := Option.map_eq_some_iff.mp h
    cases heq
    have hle : reserve.config.fees.flashLoanFeeWad.toNat ≤ u64Max := by
      have := reserve.config.fees.flashLoanFeeWad.toNat_lt
      unfold u64Max
      omega
    refine ⟨(wadToRat_bounds hle).1, ?_, fun hkamino => by cases hkamino⟩
    rw [← (saveFeeBpsFromWad_eq hle).1, ← hexact]
    exact (Option.some.inj hfee).symm

theorem fee_of_lastObserved (hexact : klend.f64 = .exact) (hsf : klend.FeeIsU64)
    {calls : List RouterCall} {key : Pubkey} {info : ReserveInfo} {rate : ℚ} {feeBps : Nat}
    (h : lastObserved klend unpack calls key = some (info, rate))
    (hfee : info.feeBps = some feeBps) :
    0 ≤ rate ∧ feeBps = roundHalf (rate * 10000) ∧
      (info.provider = .kamino → rate ≠ sfToRat u64Max) := by
  obtain ⟨c, -, hc⟩ := List.mem_filterMap.mp (List.mem_of_getLast? h)
  exact fee_of_observed hexact hsf ((written_eq_some_iff _ _ _ _).mp hc) hfee

end RouterCall

end

namespace MultiSourceRouter

/-- **Rounding costs at most a basis point.**  In exact arithmetic and with all
reserves observed, both fee conversions round the true rate and stay within a
`u32`, the disabled sentinel is never routed to, and the true rate of the routed
reserve is at most a basis point above the smallest true rate of an eligible
one. -/
theorem route_fee_near_minimal (klend : Klend.Interface)
    (unpack : List UInt8 → Solend.Unpacked Solend.Reserve) (hexact : klend.f64 = .exact)
    (hsf : klend.FeeIsU64) (calls : List RouterCall)
    (hobserved : ∀ c ∈ calls, c.isObservation = true)
    (router other : MultiSourceRouter) (hrun : run klend unpack calls = some router)
    (hother : router.SameEntries other) (mint : Pubkey) (amount : Nat) :
    (∀ sf < u64Max,
        kaminoFeeBpsFromSf klend.f64 sf = some (roundHalf ((sf : ℚ) / 2 ^ 60 * 10000)) ∧
        roundHalf ((sf : ℚ) / 2 ^ 60 * 10000) < 2 ^ 32) ∧
      (∀ wad ≤ u64Max,
        saveFeeBpsFromWad klend.f64 wad = roundHalf ((wad : ℚ) / 10 ^ 18 * 10000) ∧
        roundHalf ((wad : ℚ) / 10 ^ 18 * 10000) < 2 ^ 32) ∧
      kaminoFeeBpsFromSf klend.f64 u64Max = none ∧
      ∀ source, other.route mint amount = some source →
        ∃ info rate, RouterCall.lastObserved klend unpack calls source.reserve =
            some (info, rate) ∧
          (info.provider = .kamino → rate ≠ (u64Max : ℚ) / 2 ^ 60) ∧
          ∀ key info' rate' feeBps,
            RouterCall.lastObserved klend unpack calls key = some (info', rate') →
            Eligible klend unpack calls mint amount key info' feeBps →
              rate ≤ rate' + 1 / 10000 := by
  refine ⟨fun sf hsf => ?_, fun wad hwad => ?_, if_pos rfl, ?_⟩
  · rw [hexact]
    exact kaminoFeeBpsFromSf_eq hsf
  · rw [hexact]
    exact saveFeeBpsFromWad_eq hwad
  · intro source hroute
    obtain ⟨info, hfund, hbest⟩ := route_least hroute
    have heligible := (canFund_iff_eligible hrun hother).mp hfund
    have htracked := heligible.tracked
    rw [RouterCall.tracked_eq klend unpack hobserved] at htracked
    obtain ⟨⟨info, rate⟩, hlast, rfl⟩ := Option.map_eq_some_iff.mp htracked
    obtain ⟨hnonneg, hfee, hsentinel⟩ :=
      RouterCall.fee_of_lastObserved hexact hsf hlast heligible.enabled
    refine ⟨info, rate, hlast, hsentinel, ?_⟩
    intro key info' rate' feeBps hlast' heligible'
    obtain ⟨hnonneg', hfee', -⟩ :=
      RouterCall.fee_of_lastObserved hexact hsf hlast' heligible'.enabled
    have hle : source.feeBps ≤ feeBps := by
      by_contra hlt
      exact hbest key info' feeBps ((canFund_iff_eligible hrun hother).mpr heligible')
        (Or.inl (Nat.lt_of_not_le hlt))
    have hcast : (source.feeBps : ℚ) ≤ feeBps := Nat.cast_le.mpr hle
    have hrate := (roundHalf_bounds (q := rate * 10000) (by linarith)).2
    have hrate' := (roundHalf_bounds (q := rate' * 10000) (by linarith)).1
    rw [← hfee] at hrate
    rw [← hfee'] at hrate'
    linarith

/-- The sample codec for a reserve of `mint` that has `available` thousand tokens and lends
them out at `fee` tenths of a basis point. -/
def lendingSample : Klend.Interface where
  __ := Klend.sample
  reserve
    | [43, 242, 204, 202, 26, 247, 59, 127, mint, available, fee] =>
      some ⟨Bytes32.fill mint, 2 ^ 60, 6, 0, 0, available.toNat * 1000, fee.toNat * 2 ^ 60 / 10 ^ 5⟩
    | _ => none

theorem lendingSample_feeIsU64 : lendingSample.FeeIsU64 := by
  intro data reserve h
  simp only [lendingSample] at h
  split at h
  · cases h
    next fee =>
      have hfee : fee.toNat < 2 ^ 8 := fee.toNat_lt
      unfold u64Max
      dsimp only
      omega
  · cases h

/-- An account of the Save program for a reserve, zero where nothing is said. -/
def saveAccount (mint : UInt8) (available flashLoanFeeWad : Nat) : List UInt8 :=
  1 :: List.replicate 41 0 ++ List.replicate 32 mint ++ List.replicate 97 0 ++
    ByteCodec.leBytes 8 available ++ List.replicate 135 0 ++
      ByteCodec.leBytes 8 flashLoanFeeWad ++ List.replicate 297 0

/-- A Kamino reserve at 10.4 basis points and a Save reserve at 9.6: both round to ten, the
Kamino reserve is routed, and its true rate is higher, but by less than a basis point. -/
theorem route_fee_near_minimal_both :
    let calls : List RouterCall :=
      [.observeSaveAccount (Bytes32.fill 3) (saveAccount 2 2000000 960000000000000),
        .observeKaminoAccount (Bytes32.fill 1) [43, 242, 204, 202, 26, 247, 59, 127, 2, 5, 104],
        .setSaveLiveVerified true]
    ∃ router, run lendingSample Solend.Reserve.unpackFromSlice calls = some router ∧
      router.route (Bytes32.fill 2) 1000 = some ⟨.kamino, Bytes32.fill 1, 10⟩ ∧
        ∃ info rate info' rate',
          RouterCall.lastObserved lendingSample Solend.Reserve.unpackFromSlice calls
              (Bytes32.fill 1) = some (info, rate) ∧
            RouterCall.lastObserved lendingSample Solend.Reserve.unpackFromSlice calls
                (Bytes32.fill 3) = some (info', rate') ∧
              rate' < rate ∧ rate ≤ rate' + 1 / 10000 := by
  intro calls
  have hroute : (run lendingSample Solend.Reserve.unpackFromSlice calls).bind
      (fun router => router.route (Bytes32.fill 2) 1000) = some ⟨.kamino, Bytes32.fill 1, 10⟩ := by
    decide +kernel
  obtain ⟨router, hrun, hroute⟩ := Option.bind_eq_some_iff.mp hroute
  have hobserved : ∀ c ∈ calls, c.isObservation = true := by decide +kernel
  have hnear := route_fee_near_minimal _ _ rfl lendingSample_feeIsU64 calls hobserved router router
    hrun (SameEntries.refl _) (Bytes32.fill 2) 1000
  obtain ⟨info, rate, hlast, -, hmin⟩ := hnear.2.2.2 _ hroute
  have hsave : RouterCall.lastObserved lendingSample Solend.Reserve.unpackFromSlice calls
      (Bytes32.fill 3) =
        some (⟨.solend, Bytes32.fill 2, 2000000, some 10⟩, wadToRat 960000000000000) := by
    decide +kernel
  have hlower : (RouterCall.lastObserved lendingSample Solend.Reserve.unpackFromSlice calls
      (Bytes32.fill 1)).all fun o => wadToRat 960000000000000 < o.2 := by
    decide +kernel
  rw [hlast] at hlower
  have heligible : Eligible lendingSample Solend.Reserve.unpackFromSlice calls (Bytes32.fill 2)
      1000 (Bytes32.fill 3) ⟨.solend, Bytes32.fill 2, 2000000, some 10⟩ 10 := by
    refine ⟨?_, rfl, by decide, Or.inr (by decide +kernel), rfl⟩
    rw [RouterCall.tracked_eq _ _ hobserved, hsave]
    rfl
  exact ⟨router, hrun, hroute, info, rate, _, _, hlast, hsave, of_decide_eq_true hlower,
    hmin _ _ _ _ hsave heligible⟩

end MultiSourceRouter

end Gyrfalcon
