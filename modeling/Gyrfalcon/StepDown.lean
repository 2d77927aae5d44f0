import Gyrfalcon.Feasibility
import Gyrfalcon.Lib.GridSearch
import Gyrfalcon.Sizing

/-!
# Stepping a size down (`strategy/src/sizing.rs`)

`size_position_with_feasibility` starts at the close factor or the flash depth,
whichever is smaller, and goes down in tenths of it until the route fits.  The
loop is a search of the grid of these sizes, for any feasibility check: what it
returns is read off the grid, and compared with the largest size that fits.
-/

namespace Gyrfalcon

open GridSearch (grid search rejected lastPoint)

structure SizingDecision where
  initialSize : Nat
  finalSize : Nat
  usedAlt : Bool
  stepDowns : Nat
  bindingConstraint : Option BindingConstraint
  deriving DecidableEq, Repr

/-- `(initial_size / 10).max(1)`. -/
def stepDecrement (initialSize : Nat) : Nat := max (initialSize / 10) 1

theorem stepDecrement_pos (initialSize : Nat) : 0 < stepDecrement initialSize := by
  unfold stepDecrement
  omega

/-- A feasibility check of one size. -/
abbrev FeasibilityCheck := Nat → Except FeasibilityOverflow FeasibilityFit

section

variable (candidate : BreachCandidate ℚ) (initialSize : Nat) (check : FeasibilityCheck)

/-- The loop, from `currentSize` on. -/
def stepDown (currentSize stepDowns : Nat)
    (lastOverflowConstraint : Option BindingConstraint) : SizingDecision :=
  match check currentSize with
  | .ok fit =>
    { initialSize
      finalSize := currentSize
      usedAlt := fit.usedAlt
      stepDowns
      bindingConstraint :=
        if currentSize < initialSize then lastOverflowConstraint
        else if initialSize = candidate.closeFactorMaxRepay then some .closeFactor
        else some .flashDepth }
  | .error overflow =>
    if currentSize ≤ stepDecrement initialSize then
      { initialSize
        finalSize := 0
        usedAlt := false
        stepDowns := stepDowns + 1
        bindingConstraint := some overflow.constraint }
    else
      stepDown (currentSize - stepDecrement initialSize) (stepDowns + 1) (some overflow.constraint)
termination_by currentSize
decreasing_by
  have := stepDecrement_pos initialSize
  omega

end

/-- `size_position_with_feasibility`, for a given check. -/
def sizePositionBy (candidate : BreachCandidate ℚ) (flashSourceAvailable : Nat)
    (check : FeasibilityCheck) : SizingDecision :=
  let initialSize := min candidate.closeFactorMaxRepay flashSourceAvailable
  if initialSize = 0 then
    { initialSize := 0
      finalSize := 0
      usedAlt := false
      stepDowns := 0
      bindingConstraint :=
        if candidate.closeFactorMaxRepay = 0 then some .closeFactor else some .flashDepth }
  else stepDown candidate initialSize check initialSize 0 none

def sizePositionWithFeasibility (sdk : SizingSdk) (candidate : BreachCandidate ℚ)
    (flashSourceAvailable : Nat) (route : RouteFeasibilityProvider)
    (altManager : Option AltManager) (payer : Pubkey) (recentBlockhash : Hash) : SizingDecision :=
  sizePositionBy candidate flashSourceAvailable fun repayAmount =>
    checkFeasibility sdk repayAmount route altManager payer recentBlockhash

def sizePositionStepped (sdk : SizingSdk) (candidate : BreachCandidate ℚ)
    (flashSourceAvailable : Nat) (route : RouteFeasibilityProvider)
    (altManager : Option AltManager) (payer : Pubkey) (recentBlockhash : Hash) : Nat :=
  (sizePositionWithFeasibility sdk candidate flashSourceAvailable route altManager payer
    recentBlockhash).finalSize

/-! ## The loop is a search of the grid -/

/-- Whether a size fits. -/
def FeasibilityCheck.fits (check : FeasibilityCheck) (size : Nat) : Bool := (check size).isOk

/-- The constraint a size violates. -/
def FeasibilityCheck.violates (check : FeasibilityCheck) (size : Nat) :
    Option BindingConstraint :=
  match check size with
  | .ok _ => none
  | .error overflow => some overflow.constraint

/-- Whether a size needs lookup tables to fit. -/
def FeasibilityCheck.usesAlt (check : FeasibilityCheck) (size : Nat) : Bool :=
  match check size with
  | .ok fit => fit.usedAlt
  | .error _ => false

/-- The bound that the initial size is equal to. -/
def initialConstraint (candidate : BreachCandidate ℚ) (initialSize : Nat) : BindingConstraint :=
  if initialSize = candidate.closeFactorMaxRepay then .closeFactor else .flashDepth

theorem FeasibilityCheck.fits_of_ok {check : FeasibilityCheck} {size : Nat} {fit : FeasibilityFit}
    (h : check size = .ok fit) : check.fits size = true ∧ check.usesAlt size = fit.usedAlt := by
  unfold fits usesAlt
  rw [h]
  exact ⟨rfl, rfl⟩

theorem FeasibilityCheck.fits_of_error {check : FeasibilityCheck} {size : Nat}
    {overflow : FeasibilityOverflow} (h : check size = .error overflow) :
    check.fits size = false ∧ check.violates size = some overflow.constraint := by
  unfold fits violates
  rw [h]
  exact ⟨rfl, rfl⟩

theorem FeasibilityCheck.error_of_rejected (check : FeasibilityCheck) {d size n : Nat}
    (h : n ∈ rejected check.fits d size) : ∃ overflow, check n = .error overflow := by
  have hfits : check.fits n = false := by simpa using List.mem_takeWhile_imp h
  cases hn : check n with
  | ok fit => simp [(fits_of_ok hn).1] at hfits
  | error overflow => exact ⟨overflow, rfl⟩

/-- The constraint carried along is used only when no later size is rejected. -/
theorem FeasibilityCheck.blame_cons (check : FeasibilityCheck) {size : Nat}
    {constraint : BindingConstraint} (h : check.violates size = some constraint) (d rest : Nat)
    (last : Option BindingConstraint) :
    ((rejected check.fits d rest).getLast?.bind check.violates).or (some constraint) =
      ((size :: rejected check.fits d rest).getLast?.bind check.violates).or last := by
  rw [List.getLast?_cons]
  cases hlater : (rejected check.fits d rest).getLast? with
  | none => simp [h]
  | some later =>
    obtain ⟨overflow, hoverflow⟩ := check.error_of_rejected (List.mem_of_getLast? hlater)
    simp [(fits_of_error hoverflow).2]

/-- **The loop.**  It returns the first point of the grid that fits, counts those
before it, and blames the last of them. -/
theorem stepDown_eq (candidate : BreachCandidate ℚ) (initialSize : Nat) (check : FeasibilityCheck)
    (currentSize stepDowns : Nat) (last : Option BindingConstraint) (hpos : 0 < currentSize)
    (hle : currentSize ≤ initialSize) :
    let found := search check.fits (stepDecrement initialSize) currentSize
    let tried := rejected check.fits (stepDecrement initialSize) currentSize
    stepDown candidate initialSize check currentSize stepDowns last =
      { initialSize
        finalSize := found.getD 0
        usedAlt := found.any check.usesAlt
        stepDowns := stepDowns + tried.length
        bindingConstraint :=
          if found = some initialSize then some (initialConstraint candidate initialSize)
          else (tried.getLast?.bind check.violates).or last } := by
  have hd := stepDecrement_pos initialSize
  fun_induction stepDown candidate initialSize check currentSize stepDowns last with
  | case1 currentSize stepDowns last fit hfit =>
    obtain ⟨hfits, halt⟩ := FeasibilityCheck.fits_of_ok hfit
    obtain ⟨hfound, htried⟩ := GridSearch.search_of_accepts hd hpos hfits
    rw [hfound, htried]
    by_cases hinit : currentSize = initialSize
    · subst hinit
      simp only [lt_self_iff_false, ↓reduceIte, initialConstraint, Option.getD_some,
        Option.any_some, halt, List.length_nil, Nat.add_zero]
      split <;> rfl
    · have hlt : currentSize < initialSize := by omega
      simp [hinit, hlt, halt]
  | case2 currentSize stepDowns last overflow hoverflow hlast =>
    obtain ⟨hfits, hviolates⟩ := FeasibilityCheck.fits_of_error hoverflow
    obtain ⟨hfound, htried⟩ := GridSearch.search_of_rejects hd hpos hfits
    have hzero : currentSize - stepDecrement initialSize = 0 := by omega
    rw [hzero] at hfound htried
    obtain ⟨hnone, hnil⟩ := GridSearch.search_zero check.fits hd
    rw [hfound, htried, hnone, hnil]
    simp [hviolates]
  | case3 currentSize stepDowns last overflow hoverflow hlast ih =>
    obtain ⟨hfits, hviolates⟩ := FeasibilityCheck.fits_of_error hoverflow
    obtain ⟨hfound, htried⟩ := GridSearch.search_of_rejects hd hpos hfits
    rw [ih (by omega) (by omega), hfound, htried]
    have hblame := check.blame_cons hviolates (stepDecrement initialSize)
      (currentSize - stepDecrement initialSize) last
    simp only [hblame, List.length_cons, Nat.add_assoc, Nat.add_comm 1]

/-! ## What is returned -/

/-- The sizes that can be tried, largest first. -/
def sizesOf (candidate : BreachCandidate ℚ) (flashSourceAvailable : Nat) : List Nat :=
  grid (stepDecrement (sizePosition candidate flashSourceAvailable))
    (sizePosition candidate flashSourceAvailable)

/-- The sizes that are tried and do not fit, in order. -/
def infeasibleTried (candidate : BreachCandidate ℚ) (flashSourceAvailable : Nat)
    (check : FeasibilityCheck) : List Nat :=
  (sizesOf candidate flashSourceAvailable).takeWhile fun size => !check.fits size

/-- A decision that is exactly what the grid of sizes and the check dictate. -/
structure SizesExactly (candidate : BreachCandidate ℚ) (flashSourceAvailable : Nat)
    (check : FeasibilityCheck) (decision : SizingDecision) : Prop where
  initialSize : decision.initialSize = sizePosition candidate flashSourceAvailable
  largest : (∃ size ∈ sizesOf candidate flashSourceAvailable, check.fits size = true) →
    IsGreatest { size | size ∈ sizesOf candidate flashSourceAvailable ∧ check.fits size = true }
      decision.finalSize
  none_fits : (∀ size ∈ sizesOf candidate flashSourceAvailable, check.fits size = false) →
    decision.finalSize = 0
  stepDowns : decision.stepDowns = (infeasibleTried candidate flashSourceAvailable check).length
  stepDowns_le : decision.stepDowns ≤ 19
  usedAlt : 0 < decision.finalSize →
    ∃ fit, check decision.finalSize = .ok fit ∧ decision.usedAlt = fit.usedAlt
  usedAlt_zero : decision.finalSize = 0 → decision.usedAlt = false
  bound : decision.finalSize = decision.initialSize → decision.bindingConstraint =
    some (initialConstraint candidate decision.initialSize)
  stepped : decision.finalSize ≠ decision.initialSize →
    ∃ size overflow, (infeasibleTried candidate flashSourceAvailable check).getLast? = some size ∧
      check size = .error overflow ∧ decision.bindingConstraint = some overflow.constraint

/-- At most nineteen sizes: ten steps of a tenth, and what the division leaves. -/
theorem points_le (initialSize : Nat) :
    (initialSize + stepDecrement initialSize - 1) / stepDecrement initialSize ≤ 19 := by
  rw [← Nat.lt_succ_iff, Nat.div_lt_iff_lt_mul (stepDecrement_pos initialSize)]
  unfold stepDecrement
  omega

theorem sizePositionBy_eq (candidate : BreachCandidate ℚ) (flashSourceAvailable : Nat)
    (check : FeasibilityCheck) (hpos : 0 < sizePosition candidate flashSourceAvailable) :
    let initialSize := sizePosition candidate flashSourceAvailable
    let found := search check.fits (stepDecrement initialSize) initialSize
    sizePositionBy candidate flashSourceAvailable check =
      { initialSize
        finalSize := found.getD 0
        usedAlt := found.any check.usesAlt
        stepDowns := (infeasibleTried candidate flashSourceAvailable check).length
        bindingConstraint :=
          if found = some initialSize then some (initialConstraint candidate initialSize)
          else (infeasibleTried candidate flashSourceAvailable check).getLast?.bind
            check.violates } := by
  intro initialSize found
  have hloop : sizePositionBy candidate flashSourceAvailable check =
      stepDown candidate initialSize check initialSize 0 none :=
    if_neg (Nat.pos_iff_ne_zero.mp hpos)
  have heq := stepDown_eq candidate initialSize check initialSize 0 none hpos (le_refl _)
  simp only [Nat.zero_add, Option.or_none] at heq
  exact hloop.trans heq

/-- Nothing to repay: no size is tried. -/
theorem sizePositionBy_zero {candidate : BreachCandidate ℚ} {flashSourceAvailable : Nat}
    (check : FeasibilityCheck) (hzero : sizePosition candidate flashSourceAvailable = 0) :
    sizePositionBy candidate flashSourceAvailable check =
      { initialSize := 0
        finalSize := 0
        usedAlt := false
        stepDowns := 0
        bindingConstraint := some (initialConstraint candidate 0) } := by
  have heq : sizePositionBy candidate flashSourceAvailable check = _ := if_pos hzero
  rw [heq, initialConstraint]
  by_cases hclose : candidate.closeFactorMaxRepay = 0
  · simp [hclose]
  · simp [hclose, Ne.symm hclose]

/-- Unless the initial size fits, some size is tried and does not. -/
theorem getLast?_infeasibleTried {candidate : BreachCandidate ℚ} {flashSourceAvailable : Nat}
    (check : FeasibilityCheck) (hpos : 0 < sizePosition candidate flashSourceAvailable)
    (hne : search check.fits (stepDecrement (sizePosition candidate flashSourceAvailable))
      (sizePosition candidate flashSourceAvailable) ≠
        some (sizePosition candidate flashSourceAvailable)) :
    ∃ size overflow, (infeasibleTried candidate flashSourceAvailable check).getLast? = some size ∧
      check size = .error overflow := by
  have hd := stepDecrement_pos (sizePosition candidate flashSourceAvailable)
  have hfirst : check.fits (sizePosition candidate flashSourceAvailable) = false := by
    by_contra hfits
    exact hne (GridSearch.search_of_accepts hd hpos (by simpa using hfits)).1
  have htried := (GridSearch.search_of_rejects hd hpos hfirst).2
  obtain ⟨size, hsize⟩ : ∃ size,
      (rejected check.fits (stepDecrement (sizePosition candidate flashSourceAvailable))
        (sizePosition candidate flashSourceAvailable)).getLast? = some size := by
    rw [htried, List.getLast?_cons]
    exact ⟨_, rfl⟩
  obtain ⟨overflow, hoverflow⟩ := check.error_of_rejected (List.mem_of_getLast? hsize)
  exact ⟨size, overflow, hsize, hoverflow⟩

section Exact

variable {candidate : BreachCandidate ℚ} {flashSourceAvailable : Nat}

theorem sizesExactly_of_zero (check : FeasibilityCheck)
    (hzero : sizePosition candidate flashSourceAvailable = 0) :
    SizesExactly candidate flashSourceAvailable check
      (sizePositionBy candidate flashSourceAvailable check) := by
  have hsizes : sizesOf candidate flashSourceAvailable = [] := by
    rw [sizesOf, hzero, GridSearch.grid_zero (stepDecrement_pos 0)]
  rw [sizePositionBy_zero check hzero]
  exact
    { initialSize := hzero.symm
      largest := by simp [hsizes]
      none_fits := fun _ => rfl
      stepDowns := by simp [infeasibleTried, hsizes]
      stepDowns_le := Nat.zero_le 19
      usedAlt := fun hfinal => absurd hfinal (lt_irrefl 0)
      usedAlt_zero := fun _ => rfl
      bound := fun _ => rfl
      stepped := fun hne => absurd rfl hne }

variable {check : FeasibilityCheck}

/-- At most nineteen sizes are tried. -/
theorem length_infeasibleTried_le :
    (infeasibleTried candidate flashSourceAvailable check).length ≤ 19 :=
  (GridSearch.length_rejected_le _ _ _).trans (points_le _)

theorem sizesExactly_of_none (hpos : 0 < sizePosition candidate flashSourceAvailable)
    (hfound : search check.fits (stepDecrement (sizePosition candidate flashSourceAvailable))
      (sizePosition candidate flashSourceAvailable) = none) :
    SizesExactly candidate flashSourceAvailable check
      (sizePositionBy candidate flashSourceAvailable check) := by
  have hnone := GridSearch.rejects_of_search hfound
  obtain ⟨size, overflow, hlast, hoverflow⟩ :=
    getLast?_infeasibleTried check hpos (by simp [hfound])
  rw [sizePositionBy_eq candidate flashSourceAvailable check hpos, hfound]
  exact
    { initialSize := rfl
      largest := by
        rintro ⟨size, hsize, hfits⟩
        rw [hnone size hsize] at hfits
        cases hfits
      none_fits := fun _ => rfl
      stepDowns := rfl
      stepDowns_le := length_infeasibleTried_le
      usedAlt := fun hfinal => absurd hfinal (lt_irrefl 0)
      usedAlt_zero := fun _ => rfl
      bound := fun hfinal => absurd hfinal (Nat.ne_of_lt hpos)
      stepped := by
        intro _
        refine ⟨size, overflow, hlast, hoverflow, ?_⟩
        simp [hlast, (FeasibilityCheck.fits_of_error hoverflow).2] }

theorem sizesExactly_of_some (hpos : 0 < sizePosition candidate flashSourceAvailable) {size : Nat}
    (hfound : search check.fits (stepDecrement (sizePosition candidate flashSourceAvailable))
      (sizePosition candidate flashSourceAvailable) = some size) :
    SizesExactly candidate flashSourceAvailable check
      (sizePositionBy candidate flashSourceAvailable check) := by
  have hd := stepDecrement_pos (sizePosition candidate flashSourceAvailable)
  have hgreatest := GridSearch.isGreatest_of_search hd hfound
  obtain ⟨fit, hfit⟩ : ∃ fit, check size = .ok fit := by
    cases hsize : check size with
    | ok fit => exact ⟨fit, rfl⟩
    | error overflow =>
      have hfits := hgreatest.1.2
      simp [(FeasibilityCheck.fits_of_error hsize).1] at hfits
  have hsize := GridSearch.pos_of_mem_grid hd hgreatest.1.1
  rw [sizePositionBy_eq candidate flashSourceAvailable check hpos]
  have hne := getLast?_infeasibleTried check hpos
  rw [hfound] at hne ⊢
  exact
    { initialSize := rfl
      largest := fun _ => hgreatest
      none_fits := by
        intro hnone
        have hfits := hnone size hgreatest.1.1
        rw [hgreatest.1.2] at hfits
        cases hfits
      stepDowns := rfl
      stepDowns_le := length_infeasibleTried_le
      usedAlt := fun _ => ⟨fit, hfit, (FeasibilityCheck.fits_of_ok hfit).2⟩
      usedAlt_zero := fun hfinal => absurd hfinal (Nat.pos_iff_ne_zero.mp hsize)
      bound := fun hfinal => if_pos (congrArg some hfinal)
      stepped := by
        intro hfinal
        have hinit : some size ≠ some (sizePosition candidate flashSourceAvailable) := fun heq =>
          hfinal (Option.some.inj heq)
        obtain ⟨last, overflow, hlast, hoverflow⟩ := hne hinit
        refine ⟨last, overflow, hlast, hoverflow, ?_⟩
        simp [hinit, hlast, (FeasibilityCheck.fits_of_error hoverflow).2] }

theorem sizePositionBy_exact (candidate : BreachCandidate ℚ) (flashSourceAvailable : Nat)
    (check : FeasibilityCheck) :
    SizesExactly candidate flashSourceAvailable check
      (sizePositionBy candidate flashSourceAvailable check) := by
  rcases Nat.eq_zero_or_pos (sizePosition candidate flashSourceAvailable) with hzero | hpos
  · exact sizesExactly_of_zero check hzero
  · cases hfound : search check.fits (stepDecrement (sizePosition candidate flashSourceAvailable))
        (sizePosition candidate flashSourceAvailable) with
    | none => exact sizesExactly_of_none hpos hfound
    | some size => exact sizesExactly_of_some hpos hfound

end Exact

/-- **Exact sizing.**  For every route the loop returns the largest of
`initial, initial - d, initial - 2 * d, …` that fits, or zero if none does. -/
theorem sizePositionWithFeasibility_exact (sdk : SizingSdk) (candidate : BreachCandidate ℚ)
    (flashSourceAvailable : Nat) (route : RouteFeasibilityProvider)
    (altManager : Option AltManager) (payer : Pubkey) (recentBlockhash : Hash) :
    SizesExactly candidate flashSourceAvailable
      (fun repayAmount => checkFeasibility sdk repayAmount route altManager payer recentBlockhash)
      (sizePositionWithFeasibility sdk candidate flashSourceAvailable route altManager payer
        recentBlockhash) :=
  sizePositionBy_exact candidate flashSourceAvailable _

/-! ## A route with a threshold -/

/-- A route of one small instruction that needs too much compute above `limit`. -/
def thresholdRoute (limit : Nat) : RouteFeasibilityProvider where
  buildInstructions _ := [⟨kaminoProgramId, [AccountMeta.new (Bytes32.fill 1) true], [0]⟩]
  estimateCu repayAmount := if limit < repayAmount then 1600000 else 450000

/-- The check of `thresholdRoute` with the v0 encoder. -/
def thresholdCheck (limit : Nat) : FeasibilityCheck := fun repayAmount =>
  checkFeasibility (MessageV0.encoder MessageV0.defaultSignature) repayAmount (thresholdRoute limit)
    none (Bytes32.fill 1) Hash.default

theorem thresholdCheck_fits (limit size : Nat) :
    (thresholdCheck limit).fits size = decide (size ≤ limit) := by
  by_cases hsize : size ≤ limit
  · have hcheck : thresholdCheck limit size = thresholdCheck 0 0 := by
      simp [thresholdCheck, checkFeasibility, thresholdRoute, Nat.not_lt.mpr hsize]
    rw [FeasibilityCheck.fits, hcheck, decide_eq_true hsize]
    decide +kernel
  · simp [FeasibilityCheck.fits, thresholdCheck, checkFeasibility, thresholdRoute,
      Nat.lt_of_not_le hsize, hsize, maxTxCu, Except.isOk, Except.toBool]

theorem thresholdRoute_isOk {limit size : Nat} (h : size ≤ limit) :
    (checkFeasibility (MessageV0.encoder MessageV0.defaultSignature) size (thresholdRoute limit) none
      (Bytes32.fill 1) Hash.default).isOk = true := by
  have hfits := thresholdCheck_fits limit size
  rw [decide_eq_true h] at hfits
  exact hfits

/-- A candidate that may repay a million. -/
def millionCandidate : BreachCandidate ℚ :=
  ⟨.kamino, Bytes32.fill 1, Bytes32.fill 2, Bytes32.fill 3, 9 / 10, 1000000, 100⟩

/-! ## Against the true optimum -/

/-- Whatever fits, every smaller positive size fits too. -/
def FeasibilityCheck.DownwardClosed (check : FeasibilityCheck) : Prop :=
  ∀ a b, 0 < a → a ≤ b → check.fits b = true → check.fits a = true

theorem thresholdCheck_downwardClosed (limit : Nat) : (thresholdCheck limit).DownwardClosed := by
  intro a b _ hab hb
  rw [thresholdCheck_fits, decide_eq_true_eq] at hb ⊢
  omega

theorem finalSize_eq (candidate : BreachCandidate ℚ) (flashSourceAvailable : Nat)
    (check : FeasibilityCheck) (hpos : 0 < sizePosition candidate flashSourceAvailable) :
    (sizePositionBy candidate flashSourceAvailable check).finalSize =
      (search check.fits (stepDecrement (sizePosition candidate flashSourceAvailable))
        (sizePosition candidate flashSourceAvailable)).getD 0 := by
  rw [sizePositionBy_eq candidate flashSourceAvailable check hpos]

/-- **Near-optimal sizing.**  The result is less than one step below the largest
size that fits. -/
theorem finalSize_near_optimal (sdk : SizingSdk) (candidate : BreachCandidate ℚ)
    (flashSourceAvailable : Nat) (route : RouteFeasibilityProvider)
    (altManager : Option AltManager) (payer : Pubkey) (recentBlockhash : Hash)
    (hpos : 0 < min candidate.closeFactorMaxRepay flashSourceAvailable)
    (hdown : FeasibilityCheck.DownwardClosed fun repayAmount =>
      checkFeasibility sdk repayAmount route altManager payer recentBlockhash)
    (s : Nat)
    (hs : IsGreatest { size | size ≤ min candidate.closeFactorMaxRepay flashSourceAvailable ∧
      (size = 0 ∨
        (checkFeasibility sdk size route altManager payer recentBlockhash).isOk = true) } s) :
    let decision := sizePositionWithFeasibility sdk candidate flashSourceAvailable route altManager
      payer recentBlockhash
    decision.finalSize ≤ s ∧ s - decision.finalSize <
      max 1 (min candidate.closeFactorMaxRepay flashSourceAvailable / 10) := by
  intro decision
  have hfinal : decision.finalSize = _ := finalSize_eq candidate flashSourceAvailable _ hpos
  rw [hfinal, max_comm]
  exact GridSearch.search_near_optimal hdown (stepDecrement_pos _) hs

/-- The largest size that fits is 750,000; steps of 100,000 stop at 700,000. -/
theorem finalSize_near_optimal_threshold :
    let decision := sizePositionWithFeasibility (MessageV0.encoder MessageV0.defaultSignature)
      millionCandidate 5000000 (thresholdRoute 750000) none (Bytes32.fill 1) Hash.default
    decision.finalSize ≤ 750000 ∧ 750000 - decision.finalSize < 100000 := by
  have hgreatest : IsGreatest { size | size ≤ min millionCandidate.closeFactorMaxRepay 5000000 ∧
      (size = 0 ∨ (thresholdCheck 750000).fits size = true) } 750000 := by
    refine ⟨⟨by decide, Or.inr ?_⟩, ?_⟩
    · rw [thresholdCheck_fits]
      decide
    · rintro size ⟨-, rfl | hfits⟩
      · exact Nat.zero_le _
      · rw [thresholdCheck_fits] at hfits
        exact of_decide_eq_true hfits
  have hstep : max 1 (min millionCandidate.closeFactorMaxRepay 5000000 / 10) = 100000 := by decide
  have hnear := finalSize_near_optimal _ _ _ _ _ _ _ (by decide)
    (thresholdCheck_downwardClosed 750000) 750000 hgreatest
  rw [hstep] at hnear
  exact hnear

theorem finalSize_eq_zero_iff {candidate : BreachCandidate ℚ} {flashSourceAvailable : Nat}
    {check : FeasibilityCheck} (hpos : 0 < sizePosition candidate flashSourceAvailable)
    (hdown : check.DownwardClosed) :
    (sizePositionBy candidate flashSourceAvailable check).finalSize = 0 ↔
      check.fits (lastPoint (stepDecrement (sizePosition candidate flashSourceAvailable))
        (sizePosition candidate flashSourceAvailable)) = false := by
  have hd := stepDecrement_pos (sizePosition candidate flashSourceAvailable)
  rw [finalSize_eq candidate flashSourceAvailable check hpos,
    ← GridSearch.search_eq_none_iff hdown hd hpos]
  cases hfound : search check.fits (stepDecrement (sizePosition candidate flashSourceAvailable))
      (sizePosition candidate flashSourceAvailable) with
  | none => simp
  | some size =>
    have hmem := (GridSearch.isGreatest_of_search hd hfound).1.1
    simpa using Nat.pos_iff_ne_zero.mp (GridSearch.pos_of_mem_grid hd hmem)

/-- The result is zero only if nothing fits. -/
def ZeroMeansInfeasible (sdk : SizingSdk) (candidate : BreachCandidate ℚ)
    (flashSourceAvailable : Nat) (route : RouteFeasibilityProvider)
    (altManager : Option AltManager) (payer : Pubkey) (recentBlockhash : Hash) : Prop :=
  (sizePositionWithFeasibility sdk candidate flashSourceAvailable route altManager payer
      recentBlockhash).finalSize = 0 →
    ∀ size, 1 ≤ size → size ≤ min candidate.closeFactorMaxRepay flashSourceAvailable →
      (checkFeasibility sdk size route altManager payer recentBlockhash).isOk = false

/-- **When zero means infeasible.**  If and only if the smallest size on the
grid fits, or not even one unit does. -/
theorem zeroMeansInfeasible_iff (sdk : SizingSdk) (candidate : BreachCandidate ℚ)
    (flashSourceAvailable : Nat) (route : RouteFeasibilityProvider)
    (altManager : Option AltManager) (payer : Pubkey) (recentBlockhash : Hash)
    (hpos : 0 < min candidate.closeFactorMaxRepay flashSourceAvailable)
    (hdown : FeasibilityCheck.DownwardClosed fun repayAmount =>
      checkFeasibility sdk repayAmount route altManager payer recentBlockhash) :
    let initialSize := min candidate.closeFactorMaxRepay flashSourceAvailable
    let smallest := (initialSize - 1) % max 1 (initialSize / 10) + 1
    ZeroMeansInfeasible sdk candidate flashSourceAvailable route altManager payer
        recentBlockhash ↔
      (checkFeasibility sdk smallest route altManager payer recentBlockhash).isOk = true ∨
        (checkFeasibility sdk 1 route altManager payer recentBlockhash).isOk = false := by
  intro initialSize smallest
  have hsmallest : smallest = lastPoint (stepDecrement (sizePosition candidate
      flashSourceAvailable)) (sizePosition candidate flashSourceAvailable) := by
    rw [lastPoint, stepDecrement, max_comm]
    rfl
  have hzero := finalSize_eq_zero_iff hpos hdown
  rw [← hsmallest] at hzero
  constructor
  · intro hmeans
    by_contra hneither
    obtain ⟨hlast, hone⟩ := not_or.mp hneither
    exact hone (hmeans (hzero.mpr (Bool.eq_false_iff.mpr hlast)) 1 (le_refl 1) hpos)
  · intro hcond hfinal size hsize _
    have hone := hcond.resolve_left (Bool.eq_false_iff.mp (hzero.mp hfinal))
    exact Bool.eq_false_iff.mpr fun hfits =>
      Bool.eq_false_iff.mp hone (hdown 1 size Nat.one_pos hsize hfits)

/-- The smallest size on the grid of a million. -/
theorem million_smallest :
    (min millionCandidate.closeFactorMaxRepay 5000000 - 1) %
      max 1 (min millionCandidate.closeFactorMaxRepay 5000000 / 10) + 1 = 100000 := by
  decide

/-- A threshold above the last point of the grid. -/
theorem zeroMeansInfeasible_iff_threshold :
    ZeroMeansInfeasible (MessageV0.encoder MessageV0.defaultSignature) millionCandidate 5000000
      (thresholdRoute 750000) none (Bytes32.fill 1) Hash.default := by
  have hiff := zeroMeansInfeasible_iff (MessageV0.encoder MessageV0.defaultSignature)
    millionCandidate
    5000000 (thresholdRoute 750000) none (Bytes32.fill 1) Hash.default (by decide)
    (thresholdCheck_downwardClosed 750000)
  simp only [million_smallest] at hiff
  exact hiff.mpr (Or.inl (thresholdRoute_isOk (by omega)))

/-- 50,000 would fit, but the last size tried is 100,000: reported as infeasible
at any size. -/
theorem zero_though_feasible :
    let check : FeasibilityCheck := fun repayAmount =>
      checkFeasibility (MessageV0.encoder MessageV0.defaultSignature) repayAmount
        (thresholdRoute 50000) none (Bytes32.fill 1) Hash.default
    check.DownwardClosed ∧ (check 50000).isOk = true ∧
      (sizePositionWithFeasibility (MessageV0.encoder MessageV0.defaultSignature) millionCandidate
        5000000 (thresholdRoute 50000) none (Bytes32.fill 1) Hash.default).finalSize = 0 := by
  intro check
  have hpos : 0 < sizePosition millionCandidate 5000000 := by decide
  refine ⟨thresholdCheck_downwardClosed 50000, thresholdRoute_isOk (le_refl _), ?_⟩
  refine (finalSize_eq_zero_iff hpos (thresholdCheck_downwardClosed 50000)).mpr ?_
  rw [thresholdCheck_fits]
  decide +kernel

end Gyrfalcon
