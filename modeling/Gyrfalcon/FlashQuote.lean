import Gyrfalcon.FlashSelection
import Gyrfalcon.SaveBorrow
import Gyrfalcon.SavePacking

/-!
# What a flash loan costs (`crates/router/src/lib.rs`, `solend-sdk/src/state/reserve.rs`)

The router quotes the flash loan fee of a Save reserve in whole basis points.  Save
charges a rate in wads, at least one token for each party that has a part, and
rounds to the nearest token.  Both read it off the same account, so the quote and
the charge can be compared, for every sequence of observations (`route_quoted`).  The
quote goes through double precision, and the bounds hold in every such arithmetic.
`route_written` starts one step earlier, at the reserves as Save packs them.
-/

namespace Gyrfalcon

open Solend FixedPoint LastWrite
open Rounding (F64)

/-- The least fee, in tokens. -/
def ReserveFees.leastFee (fees : ReserveFees) : Nat :=
  if 0 < fees.hostFeePercentage.toNat then 2 else 1

/-- Half a basis point of an amount, and what double precision adds to it. -/
def quoteSlack (amount : Nat) : ℚ := amount * (1 / 20000 + 1 / 10 ^ 13)

/-- A charge against a quote: they are within the slack and half a token of each other, unless
the least fee is charged. -/
structure Quoted (amount feeBps least charged : Nat) : Prop where
  charged_le : (charged : ℚ) ≤ max (amount * feeBps / 10000 + quoteSlack amount) least + 1 / 2
  quoted_le : (amount * feeBps / 10000 : ℚ) ≤ charged + quoteSlack amount + 1 / 2

/-! ## The quote -/

theorem roundU32_zero : roundU32 0 = 0 := by decide +kernel

/-- Three roundings lead from the wad to the basis points that are made whole. -/
theorem within_bps (f64 : F64) {wad : Nat} (h : 0 < wad) :
    F64.Within 3 (f64.mul (f64.div (f64.round wad) (10 ^ 18)) 10000) (wadToRat wad * 10000) := by
  have hone : (1 : ℚ) ≤ wad := by exact_mod_cast h
  have hrate : 1 / 10 ^ 18 ≤ wadToRat wad := by
    unfold wadToRat
    exact div_le_div_of_nonneg_right hone (by norm_num)
  have hcast : F64.Within 1 (f64.round wad) (wad : ℚ) :=
    (F64.Within.refl _).round (by decide) (by linarith)
  have hdiv : F64.Within 2 (f64.div (f64.round wad) (10 ^ 18)) (wadToRat wad) :=
    (hcast.div_const (by norm_num)).round (by decide) (by linarith)
  exact (hdiv.mul (F64.Within.refl 10000) (by linarith) (by norm_num)).round (by decide)
    (by linarith)

/-- Made whole, they are off by half of one and a little for the roundings before. -/
theorem roundU32_near {x y : ℚ} (h : F64.Within 3 x y) (hnonneg : 0 ≤ y) (hle : y ≤ 10 ^ 6) :
    (roundU32 x : ℚ) ≤ y + (1 / 2 + 1 / 10 ^ 9) ∧ y ≤ roundU32 x + (1 / 2 + 1 / 10 ^ 9) := by
  have hx := h.nonneg hnonneg
  obtain ⟨hbelow, habove⟩ := abs_le.mp (h.abs_sub_le (by decide) hnonneg)
  obtain ⟨hlower, hupper⟩ := roundHalf_bounds hx
  rw [(roundU32_eq hx (by linarith)).1]
  constructor
  · linarith
  · linarith

/-- Half a basis point either way, in whatever arithmetic. -/
theorem saveFeeBpsFromWad_near (f64 : F64) (feeWad : UInt64) :
    (saveFeeBpsFromWad f64 feeWad.toNat : ℚ) ≤
        wadToRat feeWad.toNat * 10000 + (1 / 2 + 1 / 10 ^ 9) ∧
      wadToRat feeWad.toNat * 10000 ≤
        saveFeeBpsFromWad f64 feeWad.toNat + (1 / 2 + 1 / 10 ^ 9) := by
  rcases Nat.eq_zero_or_pos feeWad.toNat with hzero | hpos
  · have hfree : saveFeeBpsFromWad f64 0 = 0 := by
      simp [saveFeeBpsFromWad, F64.div, F64.mul, roundU32_zero]
    rw [hzero, hfree]
    norm_num [wadToRat]
  · have hle : feeWad.toNat ≤ u64Max := by
      have := feeWad.toNat_lt
      unfold u64Max
      omega
    obtain ⟨hnonneg, hrate⟩ := wadToRat_bounds hle
    exact roundU32_near (within_bps f64 hpos) (by linarith) (by linarith)

example : saveFeeBpsFromWad .exact 10049999999999999 = 100 ∧
    saveFeeBpsFromWad .ieee 10049999999999999 = 101 := by decide +kernel

/-! ## The charge -/

namespace ReserveFees

variable {fees : ReserveFees} {amount : Nat} {origination host : UInt64}

/-- Whole tokens: the rate is applied exactly, and only the rounding to tokens is left. -/
theorem calculateFlashLoanFees_charged (hhost : fees.hostFeePercentage.toNat ≤ 100)
    (h : fees.calculateFlashLoanFees (.ofNat amount) = .ok (origination, host)) :
    amount * fees.flashLoanFeeWad.toNat = 0 ∧ origination.toNat + host.toNat = 0 ∨
      wad * (origination.toNat + host.toNat) ≤
          halfWad + max (amount * fees.flashLoanFeeWad.toNat) (wad * fees.leastFee) ∧
        max (amount * fees.flashLoanFeeWad.toNat) (wad * fees.leastFee) <
          wad * (origination.toNat + host.toNat) + halfWad := by
  simp only [calculateFlashLoanFees, bind_eq_ok_iff, pure_eq_ok_iff, u64CheckedSub_eq_ok_iff] at h
  obtain ⟨⟨fee, hostPart⟩, hfees, ownerPart, hsub, heq⟩ := h
  obtain ⟨rfl, rfl⟩ := Prod.mk.inj heq
  have hsum : ownerPart.toNat + hostPart.toNat = fee.toNat := by
    dsimp only at hsub
    omega
  rw [hsum]
  by_cases hpos : Rate.zero < Rate.fromScaledVal fees.flashLoanFeeWad ∧
      Decimal.zero < Decimal.ofNat amount
  · obtain ⟨part, hpart, hsplit⟩ := calculateFees_split hhost hfees hpos
    obtain ⟨-, rfl⟩ := Decimal.tryMulRate_eq_ok_iff.mp hpart
    have hexact : (Decimal.ofNat amount).scaledVal *
        (Rate.fromScaledVal fees.flashLoanFeeWad).scaledVal / wad =
          amount * fees.flashLoanFeeWad.toNat := by
      rw [Decimal.ofNat_scaledVal, Rate.fromScaledVal_scaledVal, mul_assoc,
        Nat.mul_div_cancel_left _ wad_pos]
    have hle := hsplit.fee_le
    have hlt := hsplit.le_fee
    rw [hexact] at hle hlt
    exact Or.inr ⟨hle, hlt⟩
  · obtain ⟨rfl, -⟩ := calculateFees_zero hfees hpos
    refine Or.inl ⟨?_, rfl⟩
    rw [← not_le, ← not_le, Rate.le_iff, Decimal.le_iff, Rate.fromScaledVal_scaledVal,
      Rate.zero_scaledVal, Decimal.ofNat_scaledVal, Decimal.zero_scaledVal, Nat.le_zero,
      Nat.le_zero, Nat.mul_eq_zero, or_iff_right wad_pos.ne'] at hpos
    rw [Nat.mul_eq_zero]
    tauto

/-- The fee that is due, in tokens, before the least fee and the rounding. -/
def flashLoanFeeDue (fees : ReserveFees) (amount : Nat) : ℚ :=
  amount * wadToRat fees.flashLoanFeeWad.toNat

theorem wad_mul_flashLoanFeeDue (fees : ReserveFees) (amount : Nat) :
    (wad * fees.flashLoanFeeDue amount : ℚ) = amount * fees.flashLoanFeeWad.toNat := by
  rw [flashLoanFeeDue, wadToRat, wad]
  push_cast
  ring

/-- The quote is within the slack of what is due. -/
theorem flashLoanFeeDue_near (f64 : F64) (fees : ReserveFees) (amount : Nat) :
    (amount * saveFeeBpsFromWad f64 fees.flashLoanFeeWad.toNat / 10000 : ℚ) ≤
        fees.flashLoanFeeDue amount + quoteSlack amount ∧
      fees.flashLoanFeeDue amount ≤
        amount * saveFeeBpsFromWad f64 fees.flashLoanFeeWad.toNat / 10000 +
          quoteSlack amount := by
  obtain ⟨hbps, hrate⟩ := saveFeeBpsFromWad_near f64 fees.flashLoanFeeWad
  have hamount : (0 : ℚ) ≤ amount := Nat.cast_nonneg _
  have hquote := mul_le_mul_of_nonneg_left hbps hamount
  have hdue := mul_le_mul_of_nonneg_left hrate hamount
  rw [flashLoanFeeDue, quoteSlack]
  constructor
  · linarith
  · linarith

/-- The charge is within half a token of what is due, or of the least fee; where nothing
is due, nothing is charged. -/
theorem charged_near (hhost : fees.hostFeePercentage.toNat ≤ 100)
    (h : fees.calculateFlashLoanFees (.ofNat amount) = .ok (origination, host)) :
    ((origination.toNat + host.toNat : ℕ) : ℚ) ≤
        max (fees.flashLoanFeeDue amount) fees.leastFee + 1 / 2 ∧
      fees.flashLoanFeeDue amount ≤ ((origination.toNat + host.toNat : ℕ) : ℚ) + 1 / 2 := by
  have hwad : (0 : ℚ) < wad := by norm_num [wad]
  have hwads := wad_mul_flashLoanFeeDue fees amount
  rcases calculateFlashLoanFees_charged hhost h with ⟨hzero, hnone⟩ | ⟨hle, hlt⟩
  · have hcast : (amount * fees.flashLoanFeeWad.toNat : ℚ) = 0 := by exact_mod_cast hzero
    have hfree : fees.flashLoanFeeDue amount = 0 := by
      rw [hcast] at hwads
      exact (mul_eq_zero.mp hwads).resolve_left hwad.ne'
    rw [hnone, hfree]
    have hleast := le_max_left (0 : ℚ) fees.leastFee
    push_cast
    constructor
    · linarith
    · norm_num
  · have hle' : (wad * (origination.toNat + host.toNat : ℕ) : ℚ) ≤
        halfWad + max (amount * fees.flashLoanFeeWad.toNat : ℚ) (wad * fees.leastFee) := by
      exact_mod_cast hle
    have hlt' : max (amount * fees.flashLoanFeeWad.toNat : ℚ) (wad * fees.leastFee) <
        wad * (origination.toNat + host.toNat : ℕ) + halfWad := by
      exact_mod_cast hlt
    have hhalf : (halfWad : ℚ) = wad * (1 / 2) := by norm_num [halfWad, wad]
    rw [← hwads, ← mul_max_of_nonneg _ _ hwad.le, hhalf, ← mul_add] at hle' hlt'
    constructor
    · have hcharged := le_of_mul_le_mul_left hle' hwad
      linarith
    · have hdue := lt_of_mul_lt_mul_left hlt' hwad.le
      have hleast := le_max_left (fees.flashLoanFeeDue amount) (fees.leastFee : ℚ)
      linarith

/-- The quote against the charge, for one reserve. -/
theorem quoted (f64 : F64) (hhost : fees.hostFeePercentage.toNat ≤ 100)
    (h : fees.calculateFlashLoanFees (.ofNat amount) = .ok (origination, host)) :
    Quoted amount (saveFeeBpsFromWad f64 fees.flashLoanFeeWad.toNat) fees.leastFee
      (origination.toNat + host.toNat) := by
  obtain ⟨hquote, hdue⟩ := flashLoanFeeDue_near f64 fees amount
  obtain ⟨hcharged, hrounded⟩ := charged_near hhost h
  constructor
  · have hmono := max_le_max_right (fees.leastFee : ℚ) hdue
    linarith
  · linarith

end ReserveFees

/-! ## A route -/

namespace MultiSourceRouter

variable {klend : Klend.Interface} {unpack : List UInt8 → Solend.Unpacked Solend.Reserve}

/-- A routed reserve was observed, last with the fee it is routed at. -/
theorem observed_of_route {calls : List RouterCall}
    (hobserved : ∀ c ∈ calls, c.isObservation = true) {router other : MultiSourceRouter}
    (hrun : run klend unpack calls = some router) (hother : router.SameEntries other)
    {mint : Pubkey} {amount : Nat} {source : FlashSource}
    (hroute : other.route mint amount = some source) :
    ∃ info rate, RouterCall.lastObserved klend unpack calls source.reserve = some (info, rate) ∧
      info.feeBps = some source.feeBps ∧
        ∃ c ∈ calls, c.observed klend unpack = some (source.reserve, info, rate) := by
  obtain ⟨info, hfund⟩ := canFund_of_route hroute
  have htracked := ((canFund_iff_eligible hrun hother).mp hfund).tracked
  rw [RouterCall.tracked_eq klend unpack hobserved] at htracked
  obtain ⟨⟨_, rate⟩, hlast, rfl⟩ := Option.map_eq_some_iff.mp htracked
  obtain ⟨c, hc, hwritten⟩ := List.mem_filterMap.mp (List.mem_of_getLast? hlast)
  exact ⟨_, rate, hlast, hfund.enabled, c, hc, (written_eq_some_iff _ _ _ _).mp hwritten⟩

/-- **Quoted and charged.**  Over every sequence of observations: a route leads to a Kamino
reserve, or to a Save reserve as its account was last observed, and then what Save charges
there for the amount is within the slack and half a token of what the route quotes, unless
it is the least fee. -/
theorem route_quoted (klend : Klend.Interface) (calls : List RouterCall)
    (hobserved : ∀ c ∈ calls, c.isObservation = true) (router other : MultiSourceRouter)
    (hrun : run klend Solend.Reserve.unpackFromSlice calls = some router)
    (hother : router.SameEntries other) (mint : Pubkey) (amount : Nat) (source : FlashSource)
    (hroute : other.route mint amount = some source) :
    ∃ info rate, RouterCall.lastObserved klend Solend.Reserve.unpackFromSlice calls
        source.reserve = some (info, rate) ∧
      (info.provider = .kamino ∨
        ∃ data reserve, .observeSaveAccount source.reserve data ∈ calls ∧
          (Solend.Reserve.unpackFromSlice data).run = some (.ok reserve) ∧
            info = saveReserveInfo klend.f64 reserve ∧
              ∀ origination host, validateReserveConfig reserve.config = .ok () →
                reserve.config.fees.calculateFlashLoanFees (.ofNat amount) =
                    .ok (origination, host) →
                  Quoted amount source.feeBps reserve.config.fees.leastFee
                    (origination.toNat + host.toNat)) := by
  obtain ⟨info, rate, hlast, hfee, c, hc, hseen⟩ := observed_of_route hobserved hrun hother hroute
  refine ⟨info, rate, hlast, ?_⟩
  cases c with
  | addReserve reserve provider mint availableLiquidity feeBps => cases hseen
  | setSaveLiveVerified verified => cases hseen
  | observeKaminoAccount pubkey data =>
    obtain ⟨reserve, -, heq⟩ := Option.map_eq_some_iff.mp hseen
    cases heq
    exact Or.inl rfl
  | observeSaveAccount pubkey data =>
    obtain ⟨reserve, hreserve, heq⟩ := Option.map_eq_some_iff.mp hseen
    cases heq
    have hunpack : (Solend.Reserve.unpackFromSlice data).run = some (.ok reserve) := by
      unfold RouterCall.saveReserve at hreserve
      split at hreserve
      · next hrun => exact hrun.trans (congrArg (some ∘ Except.ok) (Option.some.inj hreserve))
      · cases hreserve
    have hbps : saveFeeBpsFromWad klend.f64 reserve.config.fees.flashLoanFeeWad.toNat =
        source.feeBps :=
      Option.some.inj hfee
    rw [← hbps]
    refine Or.inr ⟨data, reserve, hc, hunpack, rfl, fun origination host hconfig hcharged => ?_⟩
    exact ReserveFees.quoted klend.f64 (validConfig_of_ok hconfig).hostFee_le hcharged

/-- A Save reserve of two million tokens at 30 basis points, everything else zero. -/
def thirtyBps : List UInt8 := saveAccount 0 2000000 3000000000000000

/-- What is read of it is accepted, and charges 3000 tokens for a million. -/
theorem thirtyBps_charges {reserve : Solend.Reserve}
    (h : (Solend.Reserve.unpackFromSlice thirtyBps).run = some (.ok reserve)) :
    validateReserveConfig reserve.config = .ok () ∧
      reserve.config.fees.calculateFlashLoanFees (.ofNat 1000000) = .ok (3000, 0) ∧
        reserve.config.fees.leastFee = 1 := by
  have hread : ((Solend.Reserve.unpackFromSlice thirtyBps).run.bind Except.toOption).all
      fun reserve => validateReserveConfig reserve.config = .ok () ∧
        reserve.config.fees.calculateFlashLoanFees (.ofNat 1000000) = .ok (3000, 0) ∧
          reserve.config.fees.leastFee = 1 := by
    decide +kernel
  rw [h] at hread
  exact of_decide_eq_true hread

theorem route_quoted_thirty :
    let calls : List RouterCall :=
      [.observeSaveAccount (Bytes32.fill 3) thirtyBps, .setSaveLiveVerified true]
    ∃ router, run Klend.sample Solend.Reserve.unpackFromSlice calls = some router ∧
      router.route Pubkey.default 1000000 = some ⟨.kamino, Bytes32.fill 3, 30⟩ ∧
        Quoted 1000000 30 1 3000 := by
  intro calls
  have hroute : (run Klend.sample Solend.Reserve.unpackFromSlice calls).bind
      (fun router => router.route Pubkey.default 1000000) =
        some ⟨.kamino, Bytes32.fill 3, 30⟩ := by
    decide +kernel
  obtain ⟨router, hrun, hroute⟩ := Option.bind_eq_some_iff.mp hroute
  have hobserved : ∀ c ∈ calls, c.isObservation = true := by decide +kernel
  obtain ⟨info, rate, hlast, hkamino | ⟨data, reserve, hdata, hunpack, -, hquoted⟩⟩ :=
    route_quoted Klend.sample calls hobserved router router hrun (SameEntries.refl _)
      Pubkey.default 1000000 _ hroute
  · have hsave : (RouterCall.lastObserved Klend.sample Solend.Reserve.unpackFromSlice calls
        (Bytes32.fill 3)).map (fun o => o.1.provider) = some .solend := by
      decide +kernel
    rw [hlast, Option.map_some, hkamino] at hsave
    cases hsave
  · have hthirty : data = thirtyBps := by
      simpa [calls] using hdata
    rw [hthirty] at hunpack
    obtain ⟨hconfig, hcharged, hleast⟩ := thirtyBps_charges hunpack
    have h := hquoted 3000 0 hconfig hcharged
    rw [hleast] at h
    exact ⟨router, hrun, hroute, h⟩

end MultiSourceRouter

/-! ## Accounts as Save writes them -/

/-- A reserve written to its account. -/
structure SaveWrite where
  key : Pubkey
  reserve : Solend.Reserve
  before : List UInt8
  data : List UInt8
  packed : reserve.packIntoSlice before = some data

namespace SaveWrite

/-- The account reaches the router. -/
def observe (w : SaveWrite) : RouterCall := .observeSaveAccount w.key w.data

/-- A reserve of a later version is not read. -/
def seen (w : SaveWrite) : Option (Pubkey × Solend.Reserve) :=
  if w.reserve.version ≤ Solend.programVersion then some (w.key, w.reserve) else none

/-- The reserve last written under `key`. -/
def lastSeen (writes : List SaveWrite) (key : Pubkey) : Option Solend.Reserve :=
  (writesTo seen key writes).getLast?

/-- The router keeps nothing that unpacking upgrades. -/
theorem saveReserveInfo_upgraded (f64 : F64) (reserve : Solend.Reserve) :
    MultiSourceRouter.saveReserveInfo f64 reserve.upgraded =
      MultiSourceRouter.saveReserveInfo f64 reserve := rfl

theorem unpack_data (w : SaveWrite) :
    (Solend.Reserve.unpackFromSlice w.data).run =
      if w.reserve.version ≤ Solend.programVersion then some (.ok w.reserve.upgraded)
      else some (.error .invalidAccountData) := by
  split
  · next hversion => exact Solend.Reserve.unpack_packed w.packed hversion
  · next hversion => exact Solend.Reserve.unpack_packed_later w.packed (UInt8.not_le.mp hversion)

theorem stores_observe (klend : Klend.Interface) (w : SaveWrite) :
    w.observe.stores klend Solend.Reserve.unpackFromSlice =
      w.seen.map fun kv => (kv.1, MultiSourceRouter.saveReserveInfo klend.f64 kv.2) := by
  rw [observe, RouterCall.stores, RouterCall.saveReserve, unpack_data, seen]
  split_ifs
  · rw [Option.map_some, Option.map_some, saveReserveInfo_upgraded]
  · rfl

theorem call_observe (klend : Klend.Interface) (router : MultiSourceRouter) (w : SaveWrite) :
    ∃ router', router.call klend Solend.Reserve.unpackFromSlice w.observe = some router' := by
  rw [observe, MultiSourceRouter.call, MultiSourceRouter.observeSaveAccount, unpack_data]
  split_ifs
  · exact ⟨_, rfl⟩
  · exact ⟨_, rfl⟩

end SaveWrite

namespace MultiSourceRouter

/-- The router is shown the accounts as they are written, and then taken live. -/
def watch (writes : List SaveWrite) : List RouterCall :=
  writes.map SaveWrite.observe ++ [.setSaveLiveVerified true]

/-- The reserve last written under `key` has the amount to lend. -/
structure Lends (writes : List SaveWrite) (mint : Pubkey) (amount : Nat) (key : Pubkey)
    (reserve : Solend.Reserve) : Prop where
  written : SaveWrite.lastSeen writes key = some reserve
  mint : reserve.liquidity.mintPubkey = mint
  liquidity : amount ≤ reserve.liquidity.availableAmount.toNat

variable {klend : Klend.Interface} {writes : List SaveWrite}

theorem run_observe (klend : Klend.Interface) (writes : List SaveWrite) :
    ∃ router, run klend Solend.Reserve.unpackFromSlice (writes.map SaveWrite.observe) =
      some router := by
  induction writes using List.reverseRecOn with
  | nil => exact ⟨new, rfl⟩
  | append_singleton writes w ih =>
    obtain ⟨before, hbefore⟩ := ih
    obtain ⟨router, hrouter⟩ := w.call_observe klend before
    refine ⟨router, ?_⟩
    rw [run, List.map_append, List.foldlM_append]
    exact Option.bind_eq_some_iff.mpr ⟨before, hbefore, by simpa using hrouter⟩

theorem run_watch (klend : Klend.Interface) (writes : List SaveWrite) :
    ∃ router, run klend Solend.Reserve.unpackFromSlice (watch writes) = some router := by
  obtain ⟨before, hbefore⟩ := run_observe klend writes
  refine ⟨before.setSaveLiveVerified true, ?_⟩
  rw [run, watch, List.foldlM_append]
  exact Option.bind_eq_some_iff.mpr ⟨before, hbefore, rfl⟩

/-- The router tracks what was last written, as far as it keeps it. -/
theorem tracked_watch (klend : Klend.Interface) (writes : List SaveWrite) (key : Pubkey) :
    RouterCall.tracked klend Solend.Reserve.unpackFromSlice (watch writes) key =
      (SaveWrite.lastSeen writes key).map (saveReserveInfo klend.f64) := by
  have hwrites : writesTo (RouterCall.stores klend Solend.Reserve.unpackFromSlice) key
      (writes.map SaveWrite.observe) =
        (writesTo SaveWrite.seen key writes).map (saveReserveInfo klend.f64) := by
    rw [← writesTo_map, writesTo, writesTo, List.filterMap_map]
    refine List.filterMap_congr fun w _ => ?_
    rw [Function.comp_apply, written, written, w.stores_observe]
  rw [RouterCall.tracked, watch, writesTo_append, hwrites, SaveWrite.lastSeen]
  exact (congrArg _ (List.append_nil _)).trans List.getLast?_map

theorem saveLive_watch (writes : List SaveWrite) : RouterCall.saveLive (watch writes) = true := by
  rw [RouterCall.saveLive, watch, List.filterMap_append]
  exact congrArg (Option.getD · false) List.getLast?_concat

theorem eligible_watch {mint : Pubkey} {amount : Nat} {key : Pubkey} {info : ReserveInfo}
    {feeBps : Nat} :
    Eligible klend Solend.Reserve.unpackFromSlice (watch writes) mint amount key info feeBps ↔
      ∃ reserve, Lends writes mint amount key reserve ∧ info = saveReserveInfo klend.f64 reserve ∧
        feeBps = saveFeeBpsFromWad klend.f64 reserve.config.fees.flashLoanFeeWad.toNat := by
  constructor
  · intro h
    have htracked := h.tracked
    rw [tracked_watch] at htracked
    obtain ⟨reserve, hwritten, rfl⟩ := Option.map_eq_some_iff.mp htracked
    exact ⟨reserve, ⟨hwritten, h.mint, h.liquidity⟩, rfl, (Option.some.inj h.enabled).symm⟩
  · rintro ⟨reserve, hlends, rfl, rfl⟩
    refine ⟨?_, hlends.mint, hlends.liquidity, Or.inr (saveLive_watch writes), rfl⟩
    rw [tracked_watch, hlends.written, Option.map_some]

/-- **A route over the accounts Save writes.**  The router reads every sequence of written
reserves without a panic; it has a route exactly when a reserve as last written has the
amount to lend, and the route leads to such a reserve of the lowest quoted fee, where Save
charges what is quoted. -/
theorem route_written (klend : Klend.Interface) (writes : List SaveWrite) :
    ∃ router, run klend Solend.Reserve.unpackFromSlice (watch writes) = some router ∧
      ∀ other, router.SameEntries other → ∀ mint amount,
        ((other.route mint amount).isSome ↔ ∃ key reserve, Lends writes mint amount key reserve) ∧
          ∀ source, other.route mint amount = some source →
            ∃ reserve, Lends writes mint amount source.reserve reserve ∧
              (∀ key reserve', Lends writes mint amount key reserve' →
                source.feeBps ≤
                  saveFeeBpsFromWad klend.f64 reserve'.config.fees.flashLoanFeeWad.toNat) ∧
              ∀ origination host, validateReserveConfig reserve.config = .ok () →
                reserve.config.fees.calculateFlashLoanFees (.ofNat amount) =
                    .ok (origination, host) →
                  Quoted amount source.feeBps reserve.config.fees.leastFee
                    (origination.toNat + host.toNat) := by
  obtain ⟨router, hrun⟩ := run_watch klend writes
  refine ⟨router, hrun, fun other hother mint amount => ⟨?_, fun source hroute => ?_⟩⟩
  · rw [route_isSome_iff]
    simp only [canFund_iff_eligible hrun hother, eligible_watch]
    constructor
    · rintro ⟨key, info, feeBps, reserve, hlends, -⟩
      exact ⟨key, reserve, hlends⟩
    · rintro ⟨key, reserve, hlends⟩
      exact ⟨key, _, _, reserve, hlends, rfl, rfl⟩
  · obtain ⟨info, hfund, hleast⟩ := route_least hroute
    obtain ⟨reserve, hlends, rfl, hfee⟩ :=
      eligible_watch.mp ((canFund_iff_eligible hrun hother).mp hfund)
    refine ⟨reserve, hlends, ?_, ?_⟩
    · intro key reserve' hlends'
      have hfund' := (canFund_iff_eligible hrun hother).mpr
        (eligible_watch.mpr ⟨reserve', hlends', rfl, rfl⟩)
      by_contra hlower
      exact hleast _ _ _ hfund' (Or.inl (not_le.mp hlower))
    · intro origination host hconfig hcharged
      rw [hfee]
      exact ReserveFees.quoted klend.f64 (validConfig_of_ok hconfig).hostFee_le hcharged

/-- A thousand tokens can be borrowed of a reserve that has them, and no more. -/
theorem route_written_plain :
    ∃ w : SaveWrite, w.reserve = plainReserve 1000 500 1200 ∧
      ∃ router, run Klend.sample Solend.Reserve.unpackFromSlice (watch [w]) = some router ∧
        (router.route Pubkey.default 1000).isSome ∧
          ¬ (router.route Pubkey.default 1001).isSome := by
  obtain ⟨packed, hpacked⟩ := (@Reserve.exists_pack_iff _ (List.replicate 619 0)).mpr
    ⟨by decide +kernel, plainReserve_packable⟩
  have hversion : (plainReserve 1000 500 1200).version ≤ programVersion := by decide
  obtain ⟨w, hreserve, hseen⟩ : ∃ w : SaveWrite, w.reserve = plainReserve 1000 500 1200 ∧
      w.seen = some (Bytes32.fill 3, plainReserve 1000 500 1200) :=
    ⟨⟨Bytes32.fill 3, _, _, packed, hpacked⟩, rfl, if_pos hversion⟩
  obtain ⟨router, hrun, hroute⟩ := route_written Klend.sample [w]
  refine ⟨w, hreserve, router, hrun, ?_, ?_⟩
  · refine (hroute router (SameEntries.refl _) _ _).1.mpr
      ⟨Bytes32.fill 3, plainReserve 1000 500 1200, ?_, rfl, by decide⟩
    simp [SaveWrite.lastSeen, writesTo, written, hseen]
  · rw [(hroute router (SameEntries.refl _) _ _).1]
    rintro ⟨key, reserve, hlends⟩
    obtain ⟨w', hmem, hwritten⟩ := List.mem_filterMap.mp (List.mem_of_getLast? hlends.written)
    rw [written_eq_some_iff, List.mem_singleton.mp hmem, hseen] at hwritten
    obtain ⟨rfl, rfl⟩ := Prod.mk.inj (Option.some.inj hwritten)
    exact absurd hlends.liquidity (by decide)

end MultiSourceRouter

end Gyrfalcon
