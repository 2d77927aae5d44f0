import Gyrfalcon.Arbitration
import Gyrfalcon.Lib.LastWrite
import Gyrfalcon.Lib.Median
import Gyrfalcon.Sizing
import Mathlib.Tactic.FieldSimp
import Mathlib.Tactic.Positivity

/-!
# The dynamic tip curve (`strategy/src/dynamic_tip.rs`)

`observe`-mode records give a contention rate per reserve and, through the
median of the slopes they imply, a tip curve.  The fit does not move as long as
more than half of the informative records lie on one curve; and a bid of the
curve, like the static bid, stays within the caps that the treasury check
applies afterwards.
-/

namespace Gyrfalcon

open LastWrite (HashMap)

/-! ## Observations -/

structure ObserveRecord where
  reserve : Pubkey
  lockContested : Bool
  wouldHaveBidUsd : ℚ
  bonusUsd : ℚ
  deriving DecidableEq, Repr

/-- Counts per reserve, as `u32`. -/
structure ContentionModel where
  contested : HashMap Pubkey UInt32
  total : HashMap Pubkey UInt32

namespace ContentionModel

def new : ContentionModel := ⟨∅, ∅⟩

/-- `entry(reserve).or_insert(0) += 1`. -/
def increment (counts : HashMap Pubkey UInt32) (reserve : Pubkey) : HashMap Pubkey UInt32 :=
  counts.insert reserve ((counts.lookup reserve).getD 0 + 1)

def observe (self : ContentionModel) (reserve : Pubkey) (lockContested : Bool) :
    ContentionModel where
  contested := if lockContested then increment self.contested reserve else self.contested
  total := increment self.total reserve

/-- The fraction of the attempts on `reserve` that were contested; zero without
observations. -/
def contention (self : ContentionModel) (reserve : Pubkey) : ℚ :=
  let total := (self.total.lookup reserve).getD 0
  if total = 0 then 0
  else
    let contested := (self.contested.lookup reserve).getD 0
    (contested.toNat : ℚ) / total.toNat

/-- The model built from a list of records. -/
def ofRecords (records : List ObserveRecord) : ContentionModel :=
  records.foldl (fun model r => model.observe r.reserve r.lockContested) new

/-! ## What the model counts -/

/-- What a bid is computed from is never negative. -/
theorem contention_nonneg (self : ContentionModel) (reserve : Pubkey) :
    0 ≤ self.contention reserve := by
  unfold contention
  simp only
  split
  · exact le_refl 0
  · positivity

theorem lookup_increment (counts : HashMap Pubkey UInt32) (reserve key : Pubkey) :
    ((increment counts reserve).lookup key).getD 0 =
      (counts.lookup key).getD 0 + if reserve = key then 1 else 0 := by
  unfold increment
  by_cases hkey : reserve = key
  · subst hkey
    simp
  · rw [AList.lookup_insert_ne (Ne.symm hkey), if_neg hkey, UInt32.add_zero]

theorem total_ofRecords (records : List ObserveRecord) (key : Pubkey) :
    ((ofRecords records).total.lookup key).getD 0 =
      UInt32.ofNat (records.countP fun r => r.reserve = key) := by
  induction records using List.reverseRecOn with
  | nil => rfl
  | append_singleton records r ih =>
    have hstep : (ofRecords (records ++ [r])).total =
        increment (ofRecords records).total r.reserve := by
      rw [ofRecords, List.foldl_append]
      rfl
    rw [hstep, lookup_increment, ih, List.countP_append, List.countP_singleton,
      UInt32.ofNat_add]
    by_cases hkey : r.reserve = key
    · simp [hkey]
    · simp [hkey]

theorem contested_ofRecords (records : List ObserveRecord) (key : Pubkey) :
    ((ofRecords records).contested.lookup key).getD 0 =
      UInt32.ofNat (records.countP fun r => r.reserve = key && r.lockContested) := by
  induction records using List.reverseRecOn with
  | nil => rfl
  | append_singleton records r ih =>
    have hstep : (ofRecords (records ++ [r])).contested = if r.lockContested then
        increment (ofRecords records).contested r.reserve else (ofRecords records).contested := by
      rw [ofRecords, List.foldl_append]
      rfl
    rw [hstep, List.countP_append, List.countP_singleton, UInt32.ofNat_add, ← ih]
    cases hcontested : r.lockContested with
    | false => simp
    | true =>
      simp only [↓reduceIte, lookup_increment, Bool.and_true]
      by_cases hkey : r.reserve = key
      · simp [hkey]
      · simp [hkey]

/-- Within the range of the counters, contention is the contested share of the
records of a reserve. -/
theorem contention_ofRecords (records : List ObserveRecord) (hlen : records.length < 2 ^ 32)
    (key : Pubkey) :
    (ofRecords records).contention key =
      ((records.countP fun r => r.reserve = key && r.lockContested : Nat) : ℚ) /
        (records.countP fun r => r.reserve = key : Nat) := by
  have htotal : (records.countP fun r => r.reserve = key) < 2 ^ 32 :=
    Nat.lt_of_le_of_lt List.countP_le_length hlen
  have hcontested : (records.countP fun r => r.reserve = key && r.lockContested) < 2 ^ 32 :=
    Nat.lt_of_le_of_lt List.countP_le_length hlen
  unfold contention
  simp only [total_ofRecords, contested_ofRecords]
  split
  · next hzero =>
    have hzero := congrArg UInt32.toNat hzero
    rw [UInt32.toNat_ofNat_of_lt' htotal] at hzero
    simp [hzero]
  · rw [UInt32.toNat_ofNat_of_lt' htotal, UInt32.toNat_ofNat_of_lt' hcontested]

end ContentionModel

/-! ## Calibration -/

structure TipCurve where
  floorTipUsd : ℚ
  k : ℚ
  deriving DecidableEq, Repr

inductive CalibrationError where
  | insufficientData (observations : Nat)
  deriving DecidableEq, Repr

def minObservations : Nat := 30

namespace TipCurve

/-- The slope one record implies, none on an uncontended reserve. -/
def impliedK (model : ContentionModel) (floorTipUsd : ℚ) (r : ObserveRecord) : Option ℚ :=
  let contention := model.contention r.reserve
  let denom := contention * r.bonusUsd
  if denom ≤ 0 then none
  else
    let impliedK := (r.wouldHaveBidUsd - floorTipUsd) / denom
    some (max impliedK 0)

/-- Fit `k` as the upper median of the implied slopes. -/
def calibrate (records : List ObserveRecord) (floorTipUsd : ℚ) :
    Except CalibrationError TipCurve :=
  if records.length < minObservations then .error (.insufficientData records.length)
  else
    let model := ContentionModel.ofRecords records
    let impliedKs := records.filterMap (impliedK model floorTipUsd)
    if h : impliedKs = [] then .error (.insufficientData 0)
    else
      let sorted := impliedKs.insertionSort (· ≤ ·)
      .ok ⟨floorTipUsd, sorted.get ⟨sorted.length / 2, Median.half_lt_length h⟩⟩

/-- The record says something about `k`. -/
def Informative (model : ContentionModel) (r : ObserveRecord) : Prop :=
  0 < model.contention r.reserve * r.bonusUsd

/-- The record's bid lies on the curve. -/
def OnCurve (model : ContentionModel) (curve : TipCurve) (r : ObserveRecord) : Prop :=
  r.wouldHaveBidUsd = curve.floorTipUsd + curve.k * model.contention r.reserve * r.bonusUsd

instance (model : ContentionModel) : DecidablePred (Informative model) := fun r =>
  inferInstanceAs (Decidable (0 < model.contention r.reserve * r.bonusUsd))

instance (model : ContentionModel) (curve : TipCurve) : DecidablePred (OnCurve model curve) :=
  fun r => inferInstanceAs (Decidable (r.wouldHaveBidUsd =
    curve.floorTipUsd + curve.k * model.contention r.reserve * r.bonusUsd))

theorem impliedK_eq_none_iff (model : ContentionModel) (floorTipUsd : ℚ) (r : ObserveRecord) :
    impliedK model floorTipUsd r = none ↔ ¬Informative model r := by
  unfold impliedK Informative
  simp only [ite_eq_left_iff, reduceCtorEq, imp_false, not_not, not_lt]

/-- A record on the curve implies its slope. -/
theorem impliedK_of_onCurve {model : ContentionModel} {curve : TipCurve} {r : ObserveRecord}
    (hk : 0 ≤ curve.k) (hinformative : Informative model r) (hcurve : OnCurve model curve r) :
    impliedK model curve.floorTipUsd r = some curve.k := by
  have hdenom : model.contention r.reserve * r.bonusUsd ≠ 0 := ne_of_gt hinformative
  unfold impliedK
  simp only [not_le.mpr hinformative, ↓reduceIte]
  rw [hcurve, add_sub_cancel_left, mul_assoc, mul_div_cancel_right₀ _ hdenom, max_eq_left hk]

/-- Every informative record implies one slope, and the others none. -/
theorem length_impliedKs (model : ContentionModel) (floorTipUsd : ℚ)
    (records : List ObserveRecord) :
    (records.filterMap (impliedK model floorTipUsd)).length =
      (records.filter (Informative model)).length := by
  induction records with
  | nil => rfl
  | cons r records ih =>
    by_cases hinformative : Informative model r
    · obtain ⟨k, hk⟩ := Option.ne_none_iff_exists'.mp
        (mt (impliedK_eq_none_iff model floorTipUsd r).mp (not_not.mpr hinformative))
      simp [hk, hinformative, ih]
    · have hnone := (impliedK_eq_none_iff model floorTipUsd r).mpr hinformative
      simp [hnone, hinformative, ih]

/-- The records on the curve all imply its slope. -/
theorem count_impliedKs_ge (curve : TipCurve) (hk : 0 ≤ curve.k) (model : ContentionModel)
    (records : List ObserveRecord) :
    ((records.filter (Informative model)).filter (OnCurve model curve)).length ≤
      (records.filterMap (impliedK model curve.floorTipUsd)).count curve.k := by
  induction records with
  | nil => exact Nat.zero_le _
  | cons r records ih =>
    by_cases hinformative : Informative model r
    · by_cases hcurve : OnCurve model curve r
      · simp only [List.filter_cons, hinformative, hcurve, decide_true, ↓reduceIte,
          List.filterMap_cons, impliedK_of_onCurve hk hinformative hcurve, List.length_cons,
          List.count_cons_self]
        exact Nat.succ_le_succ ih
      · obtain ⟨k, hk'⟩ := Option.ne_none_iff_exists'.mp
          (mt (impliedK_eq_none_iff model curve.floorTipUsd r).mp (not_not.mpr hinformative))
        simp only [List.filter_cons, hinformative, hcurve, decide_true, decide_false, ↓reduceIte,
          Bool.false_eq_true, List.filterMap_cons, hk']
        exact ih.trans List.count_le_count_cons
    · have hnone := (impliedK_eq_none_iff model curve.floorTipUsd r).mpr hinformative
      simpa [hnone, hinformative] using ih

theorem calibrate_of_majority {records : List ObserveRecord} (hlen : 30 ≤ records.length)
    (curve : TipCurve) (hk : 0 ≤ curve.k)
    (hmajority : (records.filter (Informative (.ofRecords records))).length <
      2 * ((records.filter (Informative (.ofRecords records))).filter
        (OnCurve (.ofRecords records) curve)).length) :
    calibrate records curve.floorTipUsd = .ok curve := by
  have hlength := length_impliedKs (.ofRecords records) curve.floorTipUsd records
  have hcount := count_impliedKs_ge curve hk (.ofRecords records) records
  have hne : records.filterMap (impliedK (.ofRecords records) curve.floorTipUsd) ≠ [] := by
    intro hnil
    rw [hnil, List.count_nil] at hcount
    omega
  unfold calibrate
  simp only [Nat.not_lt.mpr hlen, minObservations, ↓reduceIte]
  rw [dif_neg hne, Median.get_half_insertionSort (a := curve.k) (by omega) _ rfl]

theorem calibrate_of_uninformative {records : List ObserveRecord} (hlen : 30 ≤ records.length)
    (floorTipUsd : ℚ) (hnone : records.filter (Informative (.ofRecords records)) = []) :
    calibrate records floorTipUsd = .error (.insufficientData 0) := by
  have hnil : records.filterMap (impliedK (.ofRecords records) floorTipUsd) = [] := by
    refine List.length_eq_zero_iff.mp ?_
    rw [length_impliedKs, hnone, List.length_nil]
  unfold calibrate
  simp only [Nat.not_lt.mpr hlen, minObservations, ↓reduceIte]
  rw [dif_pos hnil]

/-- **Robust calibration.**  If more than half of the informative records lie on
one curve, the fit is that curve, whatever the other records are; without an
informative record there is no fit. -/
theorem calibrate_robust (records : List ObserveRecord) (hlen : 30 ≤ records.length)
    (floorTipUsd k : ℚ) (hk : 0 ≤ k) :
    let model := ContentionModel.ofRecords records
    let informative := records.filter (Informative model)
    (informative.length < 2 * (informative.filter (OnCurve model ⟨floorTipUsd, k⟩)).length →
        calibrate records floorTipUsd = .ok ⟨floorTipUsd, k⟩) ∧
      (informative = [] → ∃ error, calibrate records floorTipUsd = .error error) := by
  intro model informative
  constructor
  · exact calibrate_of_majority hlen ⟨floorTipUsd, k⟩ hk
  · intro hnone
    exact ⟨.insufficientData 0, calibrate_of_uninformative hlen floorTipUsd hnone⟩

/-- Sixteen records on a curve of slope one half outvote fourteen outliers; thirty
uncontended records give no fit. -/
theorem calibrate_robust_outliers :
    let onCurve : ObserveRecord := ⟨Bytes32.fill 1, true, 21, 40⟩
    let outlier : ObserveRecord := ⟨Bytes32.fill 1, true, 1000, 40⟩
    let uncontended : ObserveRecord := ⟨Bytes32.fill 2, false, 21, 40⟩
    calibrate (List.replicate 16 onCurve ++ List.replicate 14 outlier) 1 = .ok ⟨1, 1 / 2⟩ ∧
      ∃ error, calibrate (List.replicate 30 uncontended) 1 = .error error := by
  intro onCurve outlier uncontended
  exact ⟨(calibrate_robust (List.replicate 16 onCurve ++ List.replicate 14 outlier) (by decide) 1
      (1 / 2) (by decide +kernel)).1 (by decide +kernel),
    (calibrate_robust (List.replicate 30 uncontended) (by decide) 1 0 (by decide)).2
      (by decide +kernel)⟩

/-! ## Bids -/

/-- The Eq. 2b bid. -/
def bid (self : TipCurve) (contention bonusUsd : ℚ) (risk : RiskConfig ℚ) (minTipUsd : ℚ) : ℚ :=
  let raw := self.floorTipUsd + self.k * contention * bonusUsd
  let ceiling := min (risk.maxTipPctOfBonus * bonusUsd) risk.maxTipPerTxUsd
  if ceiling ≤ 0 then 0
  else
    let floor := min minTipUsd ceiling
    clamp raw floor ceiling

end TipCurve

/-- The highest tip that the percentage of the bonus and the per-tx cap allow. -/
def tipCeiling (bonusUsd : ℚ) (risk : RiskConfig ℚ) : ℚ :=
  min (risk.maxTipPctOfBonus * bonusUsd) risk.maxTipPerTxUsd

theorem TipCurve.bid_eq (self : TipCurve) (contention bonusUsd : ℚ) (risk : RiskConfig ℚ)
    (minTipUsd : ℚ) :
    self.bid contention bonusUsd risk minTipUsd =
      if tipCeiling bonusUsd risk ≤ 0 then 0
      else
        clamp (self.floorTipUsd + self.k * contention * bonusUsd)
          (min minTipUsd (tipCeiling bonusUsd risk)) (tipCeiling bonusUsd risk) := rfl

/-- The bounds of a `clamp` call, which panics when they are crossed. -/
structure ClampBounds where
  lo : ℚ
  hi : ℚ
  deriving DecidableEq, Repr

/-- The bounds `static_tip_bid` clamps with. -/
def staticTipBounds (bonusUsd : ℚ) (risk : RiskConfig ℚ) : ClampBounds :=
  ⟨0, max (tipCeiling bonusUsd risk) 0⟩

/-- These are the bounds of its `clamp` call. -/
theorem staticTipBid_eq_clamp (bonusUsd : ℚ) (risk : RiskConfig ℚ) :
    staticTipBid .exact bonusUsd risk =
      clamp (max (risk.maxTipPctOfBonus * bonusUsd) (max risk.minTipUsd staticTipFloorUsd))
        (staticTipBounds bonusUsd risk).lo (staticTipBounds bonusUsd risk).hi := rfl

/-- The bounds `TipCurve::bid` clamps with; none where it returns early. -/
def TipCurve.bidBounds (bonusUsd : ℚ) (risk : RiskConfig ℚ) (minTipUsd : ℚ) : Option ClampBounds :=
  if tipCeiling bonusUsd risk ≤ 0 then none
  else some ⟨min minTipUsd (tipCeiling bonusUsd risk), tipCeiling bonusUsd risk⟩

/-- These are the bounds of its `clamp` call, where it makes one. -/
theorem TipCurve.bid_eq_clamp (self : TipCurve) (contention bonusUsd : ℚ) (risk : RiskConfig ℚ)
    (minTipUsd : ℚ) :
    self.bid contention bonusUsd risk minTipUsd =
      match TipCurve.bidBounds bonusUsd risk minTipUsd with
      | none => 0
      | some bounds =>
        clamp (self.floorTipUsd + self.k * contention * bonusUsd) bounds.lo bounds.hi := by
  rw [self.bid_eq, TipCurve.bidBounds]
  by_cases hceiling : tipCeiling bonusUsd risk ≤ 0
  · rw [if_pos hceiling, if_pos hceiling]
  · rw [if_neg hceiling, if_neg hceiling]

/-! ## Bids stay within the budget -/

section

variable {risk : RiskConfig ℚ} {minTipUsd : ℚ}

theorem TipCurve.bidBounds_ordered {bonusUsd : ℚ} {bounds : ClampBounds}
    (h : TipCurve.bidBounds bonusUsd risk minTipUsd = some bounds) : bounds.lo ≤ bounds.hi := by
  unfold TipCurve.bidBounds at h
  split at h
  · cases h
  · cases h
    exact min_le_right _ _

theorem staticTipBounds_ordered (bonusUsd : ℚ) (risk : RiskConfig ℚ) :
    (staticTipBounds bonusUsd risk).lo ≤ (staticTipBounds bonusUsd risk).hi :=
  le_max_right _ _

theorem tipCeiling_nonneg (hcap : 0 ≤ risk.maxTipPerTxUsd) (hpct : 0 ≤ risk.maxTipPctOfBonus)
    {bonusUsd : ℚ} (hbonus : 0 ≤ bonusUsd) : 0 ≤ tipCeiling bonusUsd risk :=
  le_min (mul_nonneg hpct hbonus) hcap

/-- With a non-negative ceiling, the early return is a clamp too. -/
theorem TipCurve.bid_eq_of_nonneg (self : TipCurve) {contention bonusUsd : ℚ}
    (hmin : 0 ≤ minTipUsd) (hceiling : 0 ≤ tipCeiling bonusUsd risk) :
    self.bid contention bonusUsd risk minTipUsd =
      clamp (self.floorTipUsd + self.k * contention * bonusUsd)
        (min minTipUsd (tipCeiling bonusUsd risk)) (tipCeiling bonusUsd risk) := by
  rw [self.bid_eq]
  split
  · next h =>
    have hzero : tipCeiling bonusUsd risk = 0 := le_antisymm h hceiling
    rw [hzero, min_eq_right hmin]
    exact le_antisymm (le_clamp (le_refl 0)) (clamp_le (le_refl 0))
  · rfl

theorem TipCurve.bid_le (self : TipCurve) (contention : ℚ) {bonusUsd : ℚ} (hmin : 0 ≤ minTipUsd)
    (hceiling : 0 ≤ tipCeiling bonusUsd risk) :
    self.bid contention bonusUsd risk minTipUsd ≤ tipCeiling bonusUsd risk := by
  rw [self.bid_eq_of_nonneg hmin hceiling]
  exact clamp_le (min_le_right _ _)

/-- The bid grows with the contention and with the bonus. -/
theorem TipCurve.bid_mono (self : TipCurve) (hcap : 0 ≤ risk.maxTipPerTxUsd)
    (hpct : 0 ≤ risk.maxTipPctOfBonus) (hmin : 0 ≤ minTipUsd) (hk : 0 ≤ self.k)
    {contention contention' bonusUsd bonusUsd' : ℚ} (hcontention : 0 ≤ contention)
    (hbonus : 0 ≤ bonusUsd) (hle : contention ≤ contention') (hle' : bonusUsd ≤ bonusUsd') :
    self.bid contention bonusUsd risk minTipUsd ≤
      self.bid contention' bonusUsd' risk minTipUsd := by
  have hceilings : tipCeiling bonusUsd risk ≤ tipCeiling bonusUsd' risk :=
    min_le_min_right _ (mul_le_mul_of_nonneg_left hle' hpct)
  have hraw : self.floorTipUsd + self.k * contention * bonusUsd ≤
      self.floorTipUsd + self.k * contention' * bonusUsd' := by
    have hcontention' : 0 ≤ contention' := hcontention.trans hle
    gcongr
  rw [self.bid_eq_of_nonneg hmin (tipCeiling_nonneg hcap hpct hbonus),
    self.bid_eq_of_nonneg hmin (tipCeiling_nonneg hcap hpct (hbonus.trans hle'))]
  exact clamp_mono hraw (min_le_min_left _ hceilings) hceilings (min_le_right _ _)
    (min_le_right _ _)

theorem staticTipBid_le_tipCeiling {bonusUsd : ℚ} (hceiling : 0 ≤ tipCeiling bonusUsd risk) :
    staticTipBid .exact bonusUsd risk ≤ tipCeiling bonusUsd risk :=
  (staticTipBid_le .exact bonusUsd risk).trans (max_le hceiling (le_refl _))

theorem tipCeiling_le_cap (bonusUsd : ℚ) (risk : RiskConfig ℚ) :
    tipCeiling bonusUsd risk ≤ risk.maxTipPerTxUsd :=
  min_le_right _ _

end

/-- What both tip models promise the treasury check: `bid` is monotone, neither
passes the ceiling or clamps with crossed bounds, and arbitration never defers a
candidate for the per-tx cap. -/
structure RespectsBudget (curve : TipCurve) (risk : RiskConfig ℚ) (minTipUsd : ℚ) : Prop where
  mono_contention : ∀ contention contention' bonusUsd, 0 ≤ contention → 0 ≤ bonusUsd →
    contention ≤ contention' →
      curve.bid contention bonusUsd risk minTipUsd ≤ curve.bid contention' bonusUsd risk minTipUsd
  mono_bonus : ∀ contention bonusUsd bonusUsd', 0 ≤ contention → 0 ≤ bonusUsd →
    bonusUsd ≤ bonusUsd' →
      curve.bid contention bonusUsd risk minTipUsd ≤ curve.bid contention bonusUsd' risk minTipUsd
  bid_le : ∀ contention bonusUsd, 0 ≤ contention → 0 ≤ bonusUsd →
    curve.bid contention bonusUsd risk minTipUsd ≤
      min (risk.maxTipPctOfBonus * bonusUsd) risk.maxTipPerTxUsd
  static_le : ∀ bonusUsd, 0 ≤ bonusUsd →
    staticTipBid .exact bonusUsd risk ≤ min (risk.maxTipPctOfBonus * bonusUsd) risk.maxTipPerTxUsd
  bid_bounds : ∀ bonusUsd bounds, TipCurve.bidBounds bonusUsd risk minTipUsd = some bounds →
    bounds.lo ≤ bounds.hi
  static_bounds : ∀ bonusUsd,
    (staticTipBounds bonusUsd risk).lo ≤ (staticTipBounds bonusUsd risk).hi
  arbitrate_bid : ∀ (contention : RoutedCandidate ℚ → ℚ) (candidates : List (RoutedCandidate ℚ))
    (treasuryConfig : TreasuryConfig ℚ) (treasuryBalanceSol : ℚ),
    (∀ c ∈ candidates, 0 ≤ c.expected.bonusUsd ∧ 0 ≤ contention c) →
    ∀ a ∈ arbitrate candidates risk treasuryConfig treasuryBalanceSol fun c =>
        curve.bid (contention c) c.expected.bonusUsd risk minTipUsd,
      a.outcome ≠ .deferredBudget .exceedsPerTxCap
  arbitrate_static : ∀ (candidates : List (RoutedCandidate ℚ)) (treasuryConfig : TreasuryConfig ℚ)
    (treasuryBalanceSol : ℚ), (∀ c ∈ candidates, 0 ≤ c.expected.bonusUsd) →
    ∀ a ∈ arbitrate candidates risk treasuryConfig treasuryBalanceSol fun c =>
        staticTipBid .exact c.expected.bonusUsd risk,
      a.outcome ≠ .deferredBudget .exceedsPerTxCap

/-- **Tip models respect the budget by construction.** -/
theorem tips_respect_budget (curve : TipCurve) (hk : 0 ≤ curve.k) (risk : RiskConfig ℚ)
    (hcap : 0 ≤ risk.maxTipPerTxUsd) (hpct : 0 ≤ risk.maxTipPctOfBonus) (minTipUsd : ℚ)
    (hmin : 0 ≤ minTipUsd) : RespectsBudget curve risk minTipUsd where
  mono_contention _ _ _ hcontention hbonus hle :=
    curve.bid_mono hcap hpct hmin hk hcontention hbonus hle (le_refl _)
  mono_bonus _ _ _ hcontention hbonus hle :=
    curve.bid_mono hcap hpct hmin hk hcontention hbonus (le_refl _) hle
  bid_le contention _ _ hbonus :=
    curve.bid_le contention hmin (tipCeiling_nonneg hcap hpct hbonus)
  static_le _ hbonus := staticTipBid_le_tipCeiling (tipCeiling_nonneg hcap hpct hbonus)
  bid_bounds _ _ h := TipCurve.bidBounds_ordered h
  static_bounds bonusUsd := staticTipBounds_ordered bonusUsd risk
  arbitrate_bid contention candidates _ _ hcandidates a ha := by
    refine outcome_ne_exceedsPerTxCap (fun c hc => ?_) ha
    have hceiling := tipCeiling_nonneg hcap hpct (hcandidates c hc).1
    exact (curve.bid_le (contention c) hmin hceiling).trans (tipCeiling_le_cap _ _)
  arbitrate_static candidates _ _ hcandidates a ha := by
    refine outcome_ne_exceedsPerTxCap (fun c hc => ?_) ha
    have hceiling := tipCeiling_nonneg hcap hpct (hcandidates c hc)
    exact (staticTipBid_le_tipCeiling hceiling).trans (tipCeiling_le_cap _ _)

/-- The caps of the example configuration and a curve of slope one half. -/
theorem tips_respect_budget_example :
    let risk : RiskConfig ℚ := ⟨5, 0, 5, 8 / 10, 150, 600, 4 / 10, 1000, 3⟩
    RespectsBudget ⟨1, 1 / 2⟩ risk 2 ∧
      (⟨1, 1 / 2⟩ : TipCurve).bid (7 / 10) 40 risk 2 = 15 ∧
      (⟨1, 1 / 2⟩ : TipCurve).bid 1 1000 risk 2 = 150 := by
  intro risk
  exact ⟨tips_respect_budget ⟨1, 1 / 2⟩ (by decide +kernel) risk (by decide +kernel)
    (by decide +kernel) 2 (by decide +kernel), by decide +kernel, by decide +kernel⟩

end Gyrfalcon
