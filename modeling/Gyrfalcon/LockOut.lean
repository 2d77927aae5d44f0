import Gyrfalcon.Daemon

/-!
# Consecutive-revert lock-out, end to end

The loop asks the breaker before a flash source is known, under the all-zero
reserve, and records the outcome under the reserve it used.  A run
keeps the lock-out exactly when the key it uses would have passed too.  The two
keys agree only for a route whose reserve is the all-zero key: there the
lock-out holds in every run, and for every other route some live run breaks it.
-/

namespace Gyrfalcon

/-! ## The property -/

/-- One submission in the count of reverts on `k` since the last landing. -/
def streakStep (k : RouteKey) (streak : Nat) (submission : Submission) : Nat :=
  if submission.record.routed.route = k then
    match submission.record.outcome with
    | .landed _ _ => 0
    | .reverted _ => streak + 1
    | .notIncluded => streak
  else streak

/-- Reverted outcomes on `k`, in a row, with no landing on `k` in between. -/
def revertStreak (k : RouteKey) (submissions : List Submission) : Nat :=
  submissions.foldl (streakStep k) 0

namespace Daemon

variable (d : Daemon)

/-- Once the limit of consecutive reverts on `k` is reached, the rest of the run
does not submit on `k`. -/
def LocksOut (router : MultiSourceRouter) (k : RouteKey) (items : List FeedItem) : Prop :=
  ∀ before later, items = before ++ later →
    d.config.risk.consecutiveRevertLimit.toNat ≤ revertStreak k (d.submissions router before) →
    ∀ step ∈ Machine.steps d.step (d.after router before) later,
      ∀ submission, step.output = some submission → submission.record.routed.route ≠ k

/-! ## The all-zero reserve -/

variable {d}

theorem outOfRotation_of_allows {b : BreakerState} {p : Protocol} {k : RouteKey}
    (h : b.allows p k = .allowed) : b.outOfRotation k = false := by
  unfold BreakerState.allows at h
  split_ifs at h with _ _ _ hout
  exact Bool.eq_false_iff.mpr hout

/-- Settling one route changes nothing that another can see. -/
theorem agree_settle {b : BreakerState} {k route : RouteKey} (h : k ≠ route) (limit : UInt32)
    (outcome : SubmitOutcome ℚ) : BreakerState.Agree k (b.settle route limit outcome) b := by
  cases outcome with
  | landed slot net =>
    exact BreakerState.agree_apply_other (.recordSuccess route)
      (by simp [BreakerOp.concerns, Ne.symm h]) b
  | reverted reason =>
    exact BreakerState.agree_apply_other (.recordRevert route limit)
      (by simp [BreakerOp.concerns, Ne.symm h]) b
  | notIncluded => exact ⟨rfl, rfl, rfl, rfl, rfl⟩

/-- A route with the all-zero reserve is submitted only while it is in rotation. -/
theorem Fires.outOfRotation {s : LoopState} {item : FeedItem} {routed : RoutedCandidate ℚ}
    (h : d.Fires s item routed) (hzero : routed.route.flashReserve = Pubkey.default) :
    s.breakerState.outOfRotation routed.route = false := by
  have hkey : checkedRoute routed.candidate = routed.route := by
    unfold checkedRoute
    rw [← hzero]
    rfl
  rw [← hkey]
  exact outOfRotation_of_allows h.passes.allowed

/-! ## One run -/

/-- The limit was reached at some point of the outputs so far. -/
def Reached (d : Daemon) (k : RouteKey) (outputs : List (Option Submission)) : Prop :=
  ∃ earlier, earlier <+: outputs ∧
    d.config.risk.consecutiveRevertLimit.toNat ≤ revertStreak k earlier.reduceOption

/-- From the point on where the limit was reached `k` is out of rotation, and until then
its counter is the streak. -/
structure RotationInv (d : Daemon) (k : RouteKey) (outputs : List (Option Submission))
    (s : LoopState) : Prop where
  out : s.breakerState.outOfRotation k = true ↔ d.Reached k outputs
  count : s.breakerState.outOfRotation k = false →
    (s.breakerState.count k).toNat = revertStreak k outputs.reduceOption

/-- If the account reaches a submission on `k`, it finds `k` in rotation. -/
def InRotation (d : Daemon) (k : RouteKey) (s : LoopState) (item : FeedItem) : Prop :=
  ∀ routed, d.Fires s item routed → routed.route = k → s.breakerState.outOfRotation k = false

theorem limit_pos (d : Daemon) : 0 < d.config.risk.consecutiveRevertLimit.toNat :=
  d.config.validate_ok_iff.mp d.valid

theorem revertStreak_concat (k : RouteKey) (outputs : List (Option Submission))
    (submission : Submission) :
    revertStreak k (outputs ++ [some submission]).reduceOption =
      streakStep k (revertStreak k outputs.reduceOption) submission := by
  simp [revertStreak, List.reduceOption_append]

theorem reached_concat_iff (k : RouteKey) (outputs : List (Option Submission))
    (output : Option Submission) :
    d.Reached k (outputs ++ [output]) ↔ d.Reached k outputs ∨
      d.config.risk.consecutiveRevertLimit.toNat ≤
        revertStreak k (outputs ++ [output]).reduceOption := by
  constructor
  · rintro ⟨earlier, hprefix, hlimit⟩
    rcases List.prefix_concat_iff.mp hprefix with rfl | hprefix
    · exact Or.inr hlimit
    · exact Or.inl ⟨earlier, hprefix, hlimit⟩
  · rintro (⟨earlier, hprefix, hlimit⟩ | hlimit)
    · exact ⟨earlier, hprefix.trans (List.prefix_append _ _), hlimit⟩
    · exact ⟨_, List.prefix_rfl, hlimit⟩

/-- An output that leaves the streak alone reaches nothing new. -/
theorem reached_concat_of_eq {k : RouteKey} {outputs : List (Option Submission)}
    {output : Option Submission}
    (h : revertStreak k (outputs ++ [output]).reduceOption =
      revertStreak k outputs.reduceOption) :
    d.Reached k (outputs ++ [output]) ↔ d.Reached k outputs := by
  rw [reached_concat_iff, h]
  exact or_iff_left_of_imp fun hlimit => ⟨outputs, List.prefix_rfl, hlimit⟩

/-- One outcome on a route that is in rotation. -/
theorem settle_streak {k : RouteKey} {b : BreakerState} {streak : Nat} {limit : UInt32}
    (hlimit : 0 < limit.toNat) (hin : b.outOfRotation k = false)
    (hcount : (b.count k).toNat = streak) (hlt : streak < limit.toNat)
    (submission : Submission) (hk : submission.record.routed.route = k) :
    ((b.settle k limit submission.record.outcome).outOfRotation k = true ↔
        limit.toNat ≤ streakStep k streak submission) ∧
      ((b.settle k limit submission.record.outcome).count k).toNat =
        streakStep k streak submission := by
  unfold streakStep
  rw [if_pos hk]
  cases houtcome : submission.record.outcome with
  | landed slot net =>
    simp [BreakerState.settle, BreakerState.recordSuccess, hlimit.ne']
  | reverted reason =>
    have hsucc : (b.count k + 1).toNat = streak + 1 := by
      have hbound := limit.toNat_lt
      rw [UInt32.toNat_add, hcount]
      exact Nat.mod_eq_of_lt (by simp only [UInt32.toNat_one]; omega)
    simp only [BreakerState.settle, BreakerState.outOfRotation_recordRevert,
      BreakerState.count_recordRevert, ↓reduceIte, hin, Bool.or_false, decide_eq_true_eq,
      UInt32.le_iff_toNat_le, hsucc, and_self]
  | notIncluded =>
    simp only [BreakerState.settle, hin, Bool.false_eq_true, false_iff, not_le]
    exact ⟨hlt, hcount⟩

theorem rotationInv_step {k : RouteKey} (outputs : List (Option Submission)) (s : LoopState)
    (item : FeedItem) (hgood : d.InRotation k s item) (h : RotationInv d k outputs s) :
    RotationInv d k (outputs ++ [(d.step s item).2]) (d.step s item).1 := by
  have hkeep : ∀ output, revertStreak k (outputs ++ [output]).reduceOption =
      revertStreak k outputs.reduceOption → RotationInv d k (outputs ++ [output]) s :=
    fun output heq => ⟨h.out.trans (reached_concat_of_eq heq).symm, fun hin => by
      rw [heq]
      exact h.count hin⟩
  cases hout : (d.step s item).2 with
  | none =>
    have hbreaker : (d.step s item).1.breakerState = s.breakerState := by
      rw [step_breakerState, hout]
    obtain ⟨hrotation, hcount⟩ := hkeep none (by simp [List.reduceOption_append])
    constructor
    · rw [hbreaker]
      exact hrotation
    · rw [hbreaker]
      exact hcount
  | some submission =>
    have hbreaker : (d.step s item).1.breakerState =
        s.breakerState.settle submission.record.routed.route
          d.config.risk.consecutiveRevertLimit submission.record.outcome := by
      rw [step_breakerState, hout]
    obtain ⟨routed, hfires, hsubmission⟩ := (d.step_snd_eq_some_iff _ _ _).mp hout
    have hrouted : submission.record.routed = routed := by rw [hsubmission]; rfl
    by_cases hk : routed.route = k
    · subst hk
      have hin := hgood routed hfires rfl
      have hnot : ¬ d.Reached routed.route outputs := by
        rw [← h.out, hin]
        exact Bool.false_ne_true
      have hlt : revertStreak routed.route outputs.reduceOption <
          d.config.risk.consecutiveRevertLimit.toNat :=
        not_le.mp fun hlimit => hnot ⟨outputs, List.prefix_rfl, hlimit⟩
      obtain ⟨hrotation, hcount⟩ :=
        settle_streak d.limit_pos hin (h.count hin) hlt submission (by rw [hrouted])
      rw [hrouted] at hbreaker
      rw [← revertStreak_concat, ← hbreaker] at hrotation hcount
      exact ⟨hrotation.trans ((reached_concat_iff _ _ _).trans (or_iff_right hnot)).symm,
        fun _ => hcount⟩
    · have hne : k ≠ submission.record.routed.route := by
        rw [hrouted]
        exact Ne.symm hk
      have hagree := agree_settle hne d.config.risk.consecutiveRevertLimit
        submission.record.outcome (b := s.breakerState)
      obtain ⟨hrotation, hcount⟩ := hkeep (some submission) (by
        rw [revertStreak_concat, streakStep, if_neg hne.symm])
      constructor
      · rw [hbreaker, hagree.rotation]
        exact hrotation
      · rw [hbreaker, hagree.rotation, hagree.count]
        exact hcount

theorem rotationInv_start (d : Daemon) (router : MultiSourceRouter) (k : RouteKey) :
    RotationInv d k [] (d.start router) where
  out := by
    constructor
    · intro hout
      cases hout
    · rintro ⟨earlier, hprefix, hlimit⟩
      rw [List.prefix_nil.mp hprefix] at hlimit
      exact absurd hlimit (not_le.mpr d.limit_pos)
  count _ := rfl

/-- In a run that keeps the lock-out, an account that reaches a submission on `k` comes before
the limit does. -/
theorem inRotation_of_locksOut {router : MultiSourceRouter} {k : RouteKey}
    {before later : List FeedItem} {item : FeedItem}
    (hlocks : d.LocksOut router k (before ++ item :: later))
    (hinv : RotationInv d k (Machine.outputs d.step (d.start router) before)
      (d.after router before)) :
    d.InRotation k (d.after router before) item := by
  intro routed hfires hroute
  by_contra hout
  obtain ⟨earlier, hprefix, hlimit⟩ := hinv.out.mp (Bool.eq_true_of_not_eq_false hout)
  rw [List.prefix_iff_eq_take.mp hprefix, ← Machine.outputs_take] at hlimit
  have hafter : Machine.final d.step (d.after router (before.take earlier.length))
      (before.drop earlier.length) = d.after router before := by
    rw [after, ← Machine.final_append, List.take_append_drop]
    rfl
  have hmem := Machine.step_mem_steps d.step (d.after router (before.take earlier.length))
    (before.drop earlier.length) item later
  rw [hafter] at hmem
  refine hlocks (before.take earlier.length) (before.drop earlier.length ++ item :: later) ?_
    hlimit _ hmem _ ((d.step_snd_eq_some_iff _ _ _).mpr ⟨routed, hfires, rfl⟩) hroute
  rw [← List.append_assoc, List.take_append_drop]

/-- **When a run keeps the lock-out.**  The rest of a run stays off `k` once the limit is
reached, if and only if every account that reaches a submission on `k` would have passed the
breaker under that key too. -/
theorem locksOut_run_iff (d : Daemon) (router : MultiSourceRouter) (k : RouteKey)
    (items : List FeedItem) :
    d.LocksOut router k items ↔ ∀ step ∈ Machine.steps d.step (d.start router) items,
      d.InRotation k step.pre step.input := by
  constructor
  · intro hlocks
    have hinv : ∀ before later, items = before ++ later →
        RotationInv d k (Machine.outputs d.step (d.start router) before)
          (d.after router before) := by
      intro before
      induction before using List.reverseRecOn with
      | nil => exact fun _ _ => d.rotationInv_start router k
      | append_singleton before item ih =>
        intro later hsplit
        rw [List.append_assoc, List.singleton_append] at hsplit
        have hbefore := ih _ hsplit
        have hgood := inRotation_of_locksOut (hsplit ▸ hlocks) hbefore
        rw [Machine.outputs_append, after, Machine.final_append]
        exact rotationInv_step _ _ item hgood hbefore
    intro step hstep
    obtain ⟨before, later, hsplit, hpre, -⟩ := (Machine.mem_steps_iff _ _ _ _).mp hstep
    rw [hpre]
    exact inRotation_of_locksOut (hsplit ▸ hlocks) (hinv before _ hsplit)
  · rintro hgood before later rfl hlimit step hstep submission hout hroute
    obtain ⟨between, rest, hsplit, hpre, hpost⟩ := (Machine.mem_steps_iff _ _ _ _).mp hstep
    obtain ⟨routed, hfires, hsubmission⟩ := (d.step_snd_eq_some_iff _ _ _).mp
      ((congrArg Prod.snd hpost).trans hout)
    have hrouted : routed.route = k := by
      rw [← hroute, hsubmission]
      rfl
    rw [Machine.steps_append] at hgood
    have hin := hgood step (List.mem_append_right _ hstep) routed hfires hrouted
    have hinv := Machine.history_invariant_of_steps rotationInv_step
      (d.rotationInv_start router k) (before ++ between) fun t ht => hgood t (by
        rw [hsplit, Machine.steps_append, ← List.append_assoc, ← Machine.steps_append]
        exact List.mem_append_left _ ht)
    have hreached : d.Reached k (Machine.outputs d.step (d.start router) (before ++ between)) := by
      rw [Machine.outputs_append]
      exact ⟨_, List.prefix_append _ _, hlimit⟩
    have hout' := hinv.out.mpr hreached
    rw [Machine.final_append] at hout'
    rw [hpre] at hin
    exact Bool.false_ne_true (hin.symm.trans hout')

/-- The lock-out holds in every run for a route with the all-zero reserve. -/
theorem locksOut_of_default {k : RouteKey} (hzero : k.flashReserve = Pubkey.default)
    (router : MultiSourceRouter) (items : List FeedItem) : d.LocksOut router k items := by
  refine (d.locksOut_run_iff router k items).mpr fun step _ routed hfires hroute => ?_
  rw [← hroute] at hzero ⊢
  exact hfires.outOfRotation hzero

/-! ## Every other reserve -/

/-- An iteration that fires on a real reserve fires again when the same account
is delivered again, whatever was answered in between. -/
theorem Fires.again {s : LoopState} {item : FeedItem} {routed : RoutedCandidate ℚ}
    (h : d.Fires s item routed) (hreserve : routed.flashSource.reserve ≠ Pubkey.default)
    (answer : SubmitOutcome ℚ) : d.Fires (d.step s item).1 ⟨item.rawAcc, answer⟩ routed := by
  obtain ⟨hkind, -⟩ := KaminoAdapter.of_onAccountUpdate_some h.candidate
  have hreserves : (d.step s item).1.kamino.reserves = s.kamino.reserves := by
    rw [step_kamino, KaminoAdapter.onAccountUpdate_reserves]
    simp [LastWrite.write, KaminoAdapter.reserveWrite, hkind]
  have hmarkets : (d.step s item).1.kamino.lendingMarkets = s.kamino.lendingMarkets := by
    rw [step_kamino, KaminoAdapter.onAccountUpdate_lendingMarkets]
    simp [LastWrite.write, KaminoAdapter.marketWrite, hkind]
  have hsome := (d.step_snd_eq_some_iff s item _).mpr ⟨routed, h, rfl⟩
  have hbreaker : (d.step s item).1.breakerState = s.breakerState.settle routed.route
      d.config.risk.consecutiveRevertLimit item.answer := by
    rw [step_breakerState, hsome]
    rfl
  have hne : checkedRoute routed.candidate ≠ routed.route := fun heq =>
    hreserve (congrArg RouteKey.flashReserve heq).symm
  refine ⟨?_, ?_, ?_, h.passes.simulated, h.passes.live⟩
  · rw [← h.candidate]
    exact KaminoAdapter.onAccountUpdate_snd_congr d.klend (fun k => by rw [hreserves])
      (fun k => by rw [hmarkets]) item.rawAcc
  · rw [hbreaker, (agree_settle hne _ _).allows_eq]
    exact h.passes.allowed
  · rw [step_router]
    exact h.passes.sized

/-- The route on `k` that the sample daemon takes once the sample market and
reserve are known. -/
def sampleRoute (k : RouteKey) (risk : RiskConfig ℚ) : RoutedCandidate ℚ :=
  ⟨⟨.kamino, k.positionId, Bytes32.fill 2, Bytes32.fill 2, 9 / 10, 20000000, 10⟩, 20000000,
    ⟨.kamino, k.flashReserve, 0⟩, estimateProfit .exact 20000000 0 risk⟩

/-- A router whose only reserve is that of `k`. -/
def routerOf (k : RouteKey) : MultiSourceRouter :=
  MultiSourceRouter.new.addReserve k.flashReserve .kamino (Bytes32.fill 2) 1000000000000 (some 0)

/-- The sample market and reserve, before any obligation. -/
def warmUp : List FeedItem :=
  [⟨Klend.sampleMarket 10, .notIncluded⟩, ⟨Klend.sampleReserve 1 10, .notIncluded⟩]

theorem sample_fires (k : RouteKey) (answer : SubmitOutcome ℚ) :
    let d := Daemon.sample 1 (by decide)
    d.Fires (d.after (routerOf k) warmUp) ⟨Klend.sampleObligation k.positionId 10, answer⟩
      (sampleRoute k d.config.risk) := by
  intro d
  have hnet : (850 / 100 : ℚ) ≤ (estimateProfit .exact 20000000 0 d.config.risk).netUsd ∧
      d.config.risk.minProfitUsd ≤ (estimateProfit .exact 20000000 0 d.config.risk).netUsd := by
    decide +kernel
  have hcandidate : ((KaminoAdapter.after Klend.sample (warmUp.map FeedItem.rawAcc)).onAccountUpdate
      Klend.sample (Klend.sampleObligation (Bytes32.fill 5) 10)).2 =
        some ⟨.kamino, Bytes32.fill 5, Bytes32.fill 2, Bytes32.fill 2, 9 / 10, 20000000, 10⟩ := by
    decide +kernel
  refine ⟨?_, ?_, ?_, ?_, rfl⟩
  · rw [after_kamino]
    exact (KaminoAdapter.onAccountUpdate_snd_relabel Klend.sample _
      (Klend.sampleObligation (Bytes32.fill 5) 10) k.positionId).trans
        (congrArg (Option.map _) hcandidate)
  · rfl
  · rw [after_router]
    have hpos : 0 < min 20000000 flashDepth := by decide
    exact (sizeAndRoute_eq_some_iff _ _ _ _ _ _).mpr ⟨hpos, _, rfl, hnet.2, rfl⟩
  · have hbreach : (9 / 10 : ℚ) < 1 := by norm_num
    exact (LiteSvmSimulator.simulate_passes_iff _ _).mpr
      ⟨hbreach, Nat.zero_lt_succ _, le_refl _, hnet.1⟩

/-- A live run that breaks the lock-out on `k`: one revert at a limit of one, and
the same obligation again. -/
theorem not_locksOut_of_ne {k : RouteKey} (hk : k.flashReserve ≠ Pubkey.default) :
    let d := Daemon.sample 1 (by decide)
    let obligation : FeedItem := ⟨Klend.sampleObligation k.positionId 10, .reverted .raceLost⟩
    ¬ d.LocksOut (routerOf k) k (warmUp ++ [obligation, obligation]) := by
  intro d obligation hlocks
  have hroute : (sampleRoute k d.config.risk).route = k := rfl
  have hfires := sample_fires k (.reverted .raceLost)
  have hfirst : (d.step (d.after (routerOf k) warmUp) obligation).2 =
      some (d.submission _ _ (sampleRoute k d.config.risk)) :=
    (d.step_snd_eq_some_iff _ _ _).mpr ⟨_, hfires, rfl⟩
  have hagain : (d.step (d.step (d.after (routerOf k) warmUp) obligation).1 obligation).2 =
      some (d.submission _ _ (sampleRoute k d.config.risk)) :=
    (d.step_snd_eq_some_iff _ _ _).mpr ⟨_, hfires.again hk (.reverted .raceLost), rfl⟩
  have hafter : d.after (routerOf k) (warmUp ++ [obligation]) =
      (d.step (d.after (routerOf k) warmUp) obligation).1 := Machine.final_append _ _ _ _
  have hstreak : d.config.risk.consecutiveRevertLimit.toNat ≤
      revertStreak k (d.submissions (routerOf k) (warmUp ++ [obligation])) := by
    have houtputs : Machine.outputs d.step (d.start (routerOf k)) (warmUp ++ [obligation]) =
        Machine.outputs d.step (d.start (routerOf k)) warmUp ++
          [(d.step (d.after (routerOf k) warmUp) obligation).2] := Machine.outputs_append _ _ _ _
    rw [submissions, houtputs, hfirst, revertStreak_concat, streakStep, if_pos (by exact hroute)]
    exact Nat.succ_le_succ (Nat.zero_le _)
  rw [← hafter] at hagain
  exact hlocks (warmUp ++ [obligation]) [obligation] (by simp) hstreak _ List.mem_cons_self _
    hagain hroute

/-- **When the lock-out holds end to end.**  It holds for a route in every live
run, if and only if the route's flash reserve is the all-zero key under which
the breaker is asked. -/
theorem locksOut_iff (k : RouteKey) :
    (∀ (d : Daemon) (router : MultiSourceRouter) (items : List FeedItem), d.mode = .live →
        d.LocksOut router k items) ↔ k.flashReserve = Pubkey.default := by
  constructor
  · intro h
    by_contra hk
    exact not_locksOut_of_ne hk (h _ _ _ rfl)
  · intro hzero d router items _
    exact locksOut_of_default hzero router items

/-- Position 5 on reserve 4, limit 1: the second delivery of the obligation is
submitted although the first one reverted. -/
theorem resubmits_after_limit :
    let d := Daemon.sample 1 (by decide)
    let k : RouteKey := ⟨.kamino, Bytes32.fill 5, Bytes32.fill 4⟩
    let obligation : FeedItem := ⟨Klend.sampleObligation (Bytes32.fill 5) 10, .reverted .raceLost⟩
    let items := warmUp ++ [obligation, obligation]
    d.mode = .live ∧ d.config.risk.consecutiveRevertLimit = 1 ∧
      (d.submissions (routerOf k) items).map (fun submission =>
        (submission.record.routed.route, submission.record.outcome)) =
          [(k, .reverted .raceLost), (k, .reverted .raceLost)] ∧
      ¬ d.LocksOut (routerOf k) k items := by
  refine ⟨rfl, rfl, by decide +kernel, ?_⟩
  exact not_locksOut_of_ne (by decide)

end Daemon

end Gyrfalcon
