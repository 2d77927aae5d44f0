import Gyrfalcon.Core
import Gyrfalcon.Lib.LastWrite
import Mathlib.Data.List.DropRight

/-!
# Circuit breakers (`strategy/src/breakers.rs`)

Four breakers of three scopes (whole engine, one protocol, one route), kept in
two flags and three maps.  The abstract side is a history: the list of
operations since `new()`.  `checkOf` reads the answer of `allows` off the
history alone; `allows_run` proves that the state computes exactly that, for
every interleaving of the eight operations and every per-call limit.
-/

namespace Gyrfalcon

open LastWrite

inductive BreakerReason where
  | consecutiveRevert
  | treasuryFloor
  | drawdown
  | syncLag
  deriving DecidableEq, Repr

/-- A route is (protocol, position, flash reserve). -/
structure RouteKey where
  protocol : Protocol
  positionId : Pubkey
  flashReserve : Pubkey
  deriving DecidableEq, Repr

structure BreakerState where
  drawdownTripped : Bool
  treasuryBelowFloor : Bool
  protocolsHaltedForSyncLag : HashMap Protocol Bool
  consecutiveReverts : HashMap RouteKey UInt32
  routesTakenOutOfRotation : HashMap RouteKey Bool

inductive BreakerCheck where
  | allowed
  | halted (reason : BreakerReason)
  deriving DecidableEq, Repr

namespace BreakerState

def new : BreakerState where
  drawdownTripped := false
  treasuryBelowFloor := false
  protocolsHaltedForSyncLag := ∅
  consecutiveReverts := ∅
  routesTakenOutOfRotation := ∅

/-- The `u32` counter wraps in a release build. -/
def recordRevert (s : BreakerState) (route : RouteKey) (consecutiveRevertLimit : UInt32) :
    BreakerState :=
  let count := (s.consecutiveReverts.lookup route).getD 0 + 1
  let s := { s with consecutiveReverts := s.consecutiveReverts.insert route count }
  if consecutiveRevertLimit ≤ count then
    { s with routesTakenOutOfRotation := s.routesTakenOutOfRotation.insert route true }
  else s

/-- The common body of `record_success` and `rearm_route`. -/
def clearRoute (s : BreakerState) (route : RouteKey) : BreakerState :=
  { s with
    consecutiveReverts := s.consecutiveReverts.insert route 0
    routesTakenOutOfRotation := s.routesTakenOutOfRotation.erase route }

def recordSuccess (s : BreakerState) (route : RouteKey) : BreakerState := s.clearRoute route

def rearmRoute (s : BreakerState) (route : RouteKey) : BreakerState := s.clearRoute route

def rearmAllRoutes (s : BreakerState) : BreakerState :=
  { s with consecutiveReverts := ∅, routesTakenOutOfRotation := ∅ }

def setTreasuryBelowFloor (s : BreakerState) (belowFloor : Bool) : BreakerState :=
  { s with treasuryBelowFloor := belowFloor }

def setDrawdownTripped (s : BreakerState) : BreakerState := { s with drawdownTripped := true }

def rearmDrawdown (s : BreakerState) : BreakerState := { s with drawdownTripped := false }

def setProtocolSyncLagHalted (s : BreakerState) (protocol : Protocol) (halted : Bool) :
    BreakerState :=
  { s with protocolsHaltedForSyncLag := s.protocolsHaltedForSyncLag.insert protocol halted }

/-- The single entry point of every submission decision. -/
def allows (s : BreakerState) (protocol : Protocol) (route : RouteKey) : BreakerCheck :=
  if s.drawdownTripped then .halted .drawdown
  else if s.treasuryBelowFloor then .halted .treasuryFloor
  else if (s.protocolsHaltedForSyncLag.lookup protocol).getD false then .halted .syncLag
  else if (s.routesTakenOutOfRotation.lookup route).getD false then .halted .consecutiveRevert
  else .allowed

/-! ## What one operation does to one route -/

/-- The revert counter of a route, `0` when it has no entry. -/
def count (s : BreakerState) (route : RouteKey) : UInt32 :=
  (s.consecutiveReverts.lookup route).getD 0

/-- Whether a route is out of rotation. -/
def outOfRotation (s : BreakerState) (route : RouteKey) : Bool :=
  (s.routesTakenOutOfRotation.lookup route).getD false

/-- Whether a protocol is halted for sync lag. -/
def syncLagHalted (s : BreakerState) (protocol : Protocol) : Bool :=
  (s.protocolsHaltedForSyncLag.lookup protocol).getD false

@[simp] theorem count_recordRevert (s : BreakerState) (r r' : RouteKey) (limit : UInt32) :
    (s.recordRevert r limit).count r' = if r' = r then s.count r + 1 else s.count r' := by
  by_cases h : r' = r
  · subst h
    unfold recordRevert count
    dsimp only
    split <;> simp
  · unfold recordRevert count
    dsimp only
    split <;> simp [AList.lookup_insert_ne h]

@[simp] theorem outOfRotation_recordRevert (s : BreakerState) (r r' : RouteKey)
    (limit : UInt32) :
    (s.recordRevert r limit).outOfRotation r' =
      if r' = r then decide (limit ≤ s.count r + 1) || s.outOfRotation r
      else s.outOfRotation r' := by
  by_cases h : r' = r
  · subst h
    by_cases hl : limit ≤ s.count r' + 1
    · simp only [recordRevert, count] at hl ⊢
      simp [outOfRotation, hl]
    · simp only [recordRevert, count] at hl ⊢
      simp [outOfRotation, hl]
  · unfold recordRevert outOfRotation
    dsimp only
    split <;> simp [AList.lookup_insert_ne h]

@[simp] theorem count_clearRoute (s : BreakerState) (r r' : RouteKey) :
    (s.clearRoute r).count r' = if r' = r then 0 else s.count r' := by
  by_cases h : r' = r
  · subst h
    simp [clearRoute, count]
  · simp [clearRoute, count, h, AList.lookup_insert_ne h]

@[simp] theorem outOfRotation_clearRoute (s : BreakerState) (r r' : RouteKey) :
    (s.clearRoute r).outOfRotation r' = if r' = r then false else s.outOfRotation r' := by
  by_cases h : r' = r
  · subst h
    simp [clearRoute, outOfRotation]
  · simp [clearRoute, outOfRotation, h, AList.lookup_erase_ne h]

end BreakerState

/-! ## Operations and histories -/

inductive BreakerOp where
  | recordRevert (route : RouteKey) (limit : UInt32)
  | recordSuccess (route : RouteKey)
  | rearmRoute (route : RouteKey)
  | rearmAllRoutes
  | setTreasuryBelowFloor (belowFloor : Bool)
  | setDrawdownTripped
  | rearmDrawdown
  | setProtocolSyncLagHalted (protocol : Protocol) (halted : Bool)
  deriving DecidableEq, Repr

namespace BreakerState

def apply (s : BreakerState) : BreakerOp → BreakerState
  | .recordRevert route limit => s.recordRevert route limit
  | .recordSuccess route => s.recordSuccess route
  | .rearmRoute route => s.rearmRoute route
  | .rearmAllRoutes => s.rearmAllRoutes
  | .setTreasuryBelowFloor belowFloor => s.setTreasuryBelowFloor belowFloor
  | .setDrawdownTripped => s.setDrawdownTripped
  | .rearmDrawdown => s.rearmDrawdown
  | .setProtocolSyncLagHalted protocol halted => s.setProtocolSyncLagHalted protocol halted

/-- The state after a sequence of operations from `new()`. -/
def run (h : List BreakerOp) : BreakerState := h.foldl apply new

theorem run_concat (h : List BreakerOp) (op : BreakerOp) :
    run (h ++ [op]) = (run h).apply op := by
  simp [run]

end BreakerState

/-! ## The history automaton -/

/-- What an operation sets the drawdown flag to. -/
def BreakerOp.drawdown : BreakerOp → Option Bool
  | .setDrawdownTripped => some true
  | .rearmDrawdown => some false
  | _ => none

/-- What an operation sets the treasury flag to. -/
def BreakerOp.treasury : BreakerOp → Option Bool
  | .setTreasuryBelowFloor belowFloor => some belowFloor
  | _ => none

/-- What an operation sets the sync-lag flag of `p` to. -/
def BreakerOp.syncLag (p : Protocol) : BreakerOp → Option Bool
  | .setProtocolSyncLagHalted p' halted => if p' = p then some halted else none
  | _ => none

/-- The entry of the sync-lag map an operation writes. -/
def BreakerOp.syncLagWrite : BreakerOp → Option (Protocol × Bool)
  | .setProtocolSyncLagHalted protocol halted => some (protocol, halted)
  | _ => none

/-- The limit carried by a revert recorded on `r`. -/
def BreakerOp.revertOn (r : RouteKey) : BreakerOp → Option UInt32
  | .recordRevert r' limit => if r' = r then some limit else none
  | _ => none

/-- The operations that end a revert streak on `r`. -/
def BreakerOp.resets (r : RouteKey) : BreakerOp → Bool
  | .recordSuccess r' => r' = r
  | .rearmRoute r' => r' = r
  | .rearmAllRoutes => true
  | _ => false

/-- The operations that are not about a route other than `r`. -/
def BreakerOp.concerns (r : RouteKey) : BreakerOp → Bool
  | .recordRevert r' _ => r' = r
  | .recordSuccess r' => r' = r
  | .rearmRoute r' => r' = r
  | _ => true

/-- The limits of the reverts on `r` since the last operation that resets `r`. -/
def revertLimits (r : RouteKey) (h : List BreakerOp) : List UInt32 :=
  (h.rtakeWhile fun op => !op.resets r).filterMap (BreakerOp.revertOn r)

/-- Some `i`-th revert, counted from `1`, carried a limit of at most `i`. -/
def limitReached (limits : List UInt32) : Bool :=
  (limits.zipIdx 1).any fun (limit, i) => limit.toNat ≤ i

/-- The answer of `allows`, read off the history. -/
def checkOf (h : List BreakerOp) (p : Protocol) (r : RouteKey) : BreakerCheck :=
  if (h.filterMap BreakerOp.drawdown).getLast? = some true then .halted .drawdown
  else if (h.filterMap BreakerOp.treasury).getLast? = some true then .halted .treasuryFloor
  else if (h.filterMap (BreakerOp.syncLag p)).getLast? = some true then .halted .syncLag
  else if limitReached (revertLimits r h) then .halted .consecutiveRevert
  else .allowed

theorem limitReached_concat (limits : List UInt32) (limit : UInt32) :
    limitReached (limits ++ [limit]) =
      (limitReached limits || decide (limit.toNat ≤ limits.length + 1)) := by
  simp [limitReached, List.zipIdx_append, Nat.add_comm]

theorem revertLimits_concat (r : RouteKey) (h : List BreakerOp) (op : BreakerOp) :
    revertLimits r (h ++ [op]) =
      if op.resets r then [] else revertLimits r h ++ (op.revertOn r).toList := by
  unfold revertLimits
  rw [List.rtakeWhile_concat]
  cases hr : op.resets r with
  | true => simp
  | false => cases ho : op.revertOn r <;> simp [ho]

namespace BreakerState

/-! ### One operation -/

theorem drawdownTripped_apply (s : BreakerState) (op : BreakerOp) :
    (s.apply op).drawdownTripped = op.drawdown.getD s.drawdownTripped := by
  cases op with
  | recordRevert r limit =>
    unfold apply recordRevert
    dsimp only
    split <;> rfl
  | _ => rfl

theorem treasuryBelowFloor_apply (s : BreakerState) (op : BreakerOp) :
    (s.apply op).treasuryBelowFloor = op.treasury.getD s.treasuryBelowFloor := by
  cases op with
  | recordRevert r limit =>
    unfold apply recordRevert
    dsimp only
    split <;> rfl
  | _ => rfl

theorem protocolsHaltedForSyncLag_apply (s : BreakerState) (op : BreakerOp) :
    (s.apply op).protocolsHaltedForSyncLag =
      write BreakerOp.syncLagWrite s.protocolsHaltedForSyncLag op := by
  cases op with
  | recordRevert r limit =>
    unfold apply recordRevert
    dsimp only
    split <;> rfl
  | _ => rfl

theorem syncLagHalted_apply (p : Protocol) (s : BreakerState) (op : BreakerOp) :
    (s.apply op).syncLagHalted p = (op.syncLag p).getD (s.syncLagHalted p) := by
  have hwritten : written BreakerOp.syncLagWrite p op = op.syncLag p := by cases op <;> rfl
  unfold syncLagHalted
  rw [protocolsHaltedForSyncLag_apply, lookup_write, hwritten]
  cases op.syncLag p <;> rfl

/-- What one operation does to the counter of `r`. -/
theorem count_apply (s : BreakerState) (op : BreakerOp) (r : RouteKey) :
    (s.apply op).count r =
      if op.resets r then 0 else s.count r + UInt32.ofNat (op.revertOn r).toList.length := by
  cases op with
  | recordRevert r' limit =>
    by_cases h : r = r'
    · subst h
      simp [apply, BreakerOp.resets, BreakerOp.revertOn]
    · simp [apply, BreakerOp.resets, BreakerOp.revertOn, h, Ne.symm h]
  | recordSuccess r' => simp [apply, recordSuccess, BreakerOp.resets, BreakerOp.revertOn, eq_comm]
  | rearmRoute r' => simp [apply, rearmRoute, BreakerOp.resets, BreakerOp.revertOn, eq_comm]
  | rearmAllRoutes => simp [apply, rearmAllRoutes, count, BreakerOp.resets]
  | _ => simp [apply, setTreasuryBelowFloor, setDrawdownTripped, rearmDrawdown,
      setProtocolSyncLagHalted, count, BreakerOp.resets, BreakerOp.revertOn]

/-- What one operation does to the rotation flag of `r`. -/
theorem outOfRotation_apply (s : BreakerState) (op : BreakerOp) (r : RouteKey) :
    (s.apply op).outOfRotation r =
      if op.resets r then false
      else
        s.outOfRotation r || (op.revertOn r).any fun limit => decide (limit ≤ s.count r + 1) := by
  cases op with
  | recordRevert r' limit =>
    by_cases h : r = r'
    · subst h
      simp [apply, BreakerOp.resets, BreakerOp.revertOn, Bool.or_comm]
    · simp [apply, BreakerOp.resets, BreakerOp.revertOn, h, Ne.symm h]
  | recordSuccess r' => simp [apply, recordSuccess, BreakerOp.resets, BreakerOp.revertOn, eq_comm]
  | rearmRoute r' => simp [apply, rearmRoute, BreakerOp.resets, BreakerOp.revertOn, eq_comm]
  | rearmAllRoutes => simp [apply, rearmAllRoutes, outOfRotation, BreakerOp.resets]
  | _ => simp [apply, setTreasuryBelowFloor, setDrawdownTripped, rearmDrawdown,
      setProtocolSyncLagHalted, outOfRotation, BreakerOp.resets, BreakerOp.revertOn]

/-! ### A whole history -/

/-- A flag that every operation sets or leaves alone is the last value set. -/
theorem flag_run (flag : BreakerState → Bool) {set : BreakerOp → Option Bool}
    (hnew : flag new = false) (hstep : ∀ s op, flag (s.apply op) = (set op).getD (flag s))
    (h : List BreakerOp) : flag (run h) = decide ((h.filterMap set).getLast? = some true) := by
  induction h using List.reverseRecOn with
  | nil => exact hnew
  | append_singleton h op ih =>
    rw [run_concat, hstep, List.filterMap_append]
    cases hop : set op with
    | none => simp [hop, ih]
    | some value => simp [hop]

/-- The counter is the number of reverts since the last reset, modulo `2^32`. -/
theorem count_run (h : List BreakerOp) (r : RouteKey) :
    (run h).count r = UInt32.ofNat (revertLimits r h).length := by
  induction h using List.reverseRecOn with
  | nil => rfl
  | append_singleton h op ih =>
    rw [run_concat, count_apply, revertLimits_concat, ih]
    cases hr : op.resets r with
    | true => rfl
    | false => simp [UInt32.ofNat_add]

theorem length_revertLimits_le (h : List BreakerOp) (r : RouteKey) :
    (revertLimits r h).length ≤ (h.filterMap (BreakerOp.revertOn r)).length := by
  have hs : (h.rtakeWhile fun op => !op.resets r).Sublist h := (List.rtakeWhile_suffix _ h).sublist
  exact (hs.filterMap _).length_le

/-- A route is out of rotation exactly when a limit was reached since its last reset. -/
theorem outOfRotation_run (h : List BreakerOp) (r : RouteKey)
    (hr : (h.filterMap (BreakerOp.revertOn r)).length < 2 ^ 32) :
    (run h).outOfRotation r = limitReached (revertLimits r h) := by
  induction h using List.reverseRecOn with
  | nil => rfl
  | append_singleton h op ih =>
    rw [List.filterMap_append, List.length_append] at hr
    rw [run_concat, outOfRotation_apply, revertLimits_concat, ih (by omega), count_run]
    cases hres : op.resets r with
    | true => rfl
    | false =>
      cases ho : op.revertOn r with
      | none => simp
      | some limit =>
        have hlen := length_revertLimits_le h r
        simp only [List.filterMap_cons, ho, List.filterMap_nil, List.length_singleton] at hr
        have hcount : (UInt32.ofNat (revertLimits r h).length + 1).toNat =
            (revertLimits r h).length + 1 := by
          simp
          omega
        simp [limitReached_concat, UInt32.le_iff_toNat_le, hcount]

/-- **The breaker is its history automaton.** -/
theorem allows_run (h : List BreakerOp) (p : Protocol) (r : RouteKey)
    (hr : (h.filterMap (BreakerOp.revertOn r)).length < 2 ^ 32) :
    (run h).allows p r = checkOf h p r := by
  have hd := flag_run drawdownTripped rfl drawdownTripped_apply h
  have ht := flag_run treasuryBelowFloor rfl treasuryBelowFloor_apply h
  have hs := flag_run (syncLagHalted · p) rfl (syncLagHalted_apply p) h
  have ho := outOfRotation_run h r hr
  unfold allows checkOf
  unfold syncLagHalted at hs
  unfold outOfRotation at ho
  simp only [hd, ht, hs, ho, decide_eq_true_eq]

/-! ## Routes do not interfere -/

/-- Two states that give the same answers for `r`, now and after the same operations. -/
structure Agree (r : RouteKey) (s s' : BreakerState) : Prop where
  drawdown : s.drawdownTripped = s'.drawdownTripped
  treasury : s.treasuryBelowFloor = s'.treasuryBelowFloor
  syncLag : s.protocolsHaltedForSyncLag = s'.protocolsHaltedForSyncLag
  count : s.count r = s'.count r
  rotation : s.outOfRotation r = s'.outOfRotation r

theorem Agree.allows_eq {r : RouteKey} {s s' : BreakerState} (h : Agree r s s') (p : Protocol) :
    s.allows p r = s'.allows p r := by
  have hrot := h.rotation
  unfold outOfRotation at hrot
  unfold allows
  rw [h.drawdown, h.treasury, h.syncLag, hrot]

theorem Agree.apply {r : RouteKey} {s s' : BreakerState} (h : Agree r s s') (op : BreakerOp) :
    Agree r (s.apply op) (s'.apply op) where
  drawdown := by rw [drawdownTripped_apply, drawdownTripped_apply, h.drawdown]
  treasury := by rw [treasuryBelowFloor_apply, treasuryBelowFloor_apply, h.treasury]
  syncLag := by rw [protocolsHaltedForSyncLag_apply, protocolsHaltedForSyncLag_apply, h.syncLag]
  count := by rw [count_apply, count_apply, h.count]
  rotation := by rw [outOfRotation_apply, outOfRotation_apply, h.count, h.rotation]

/-- An operation on another route changes nothing that `r` can see. -/
theorem agree_apply_other {r : RouteKey} (op : BreakerOp) (h : op.concerns r = false)
    (s : BreakerState) : Agree r (s.apply op) s := by
  have hflags : op.drawdown = none ∧ op.treasury = none ∧ op.syncLagWrite = none := by
    cases op with
    | recordRevert r' limit => exact ⟨rfl, rfl, rfl⟩
    | recordSuccess r' => exact ⟨rfl, rfl, rfl⟩
    | rearmRoute r' => exact ⟨rfl, rfl, rfl⟩
    | _ => cases h
  have hroute : op.resets r = false ∧ op.revertOn r = none := by
    cases op with
    | recordRevert r' limit => exact ⟨rfl, if_neg (of_decide_eq_false h)⟩
    | recordSuccess r' => exact ⟨h, rfl⟩
    | rearmRoute r' => exact ⟨h, rfl⟩
    | _ => cases h
  obtain ⟨hdrawdown, htreasury, hsync⟩ := hflags
  obtain ⟨hresets, hrevert⟩ := hroute
  refine ⟨?_, ?_, ?_, ?_, ?_⟩
  · rw [drawdownTripped_apply, hdrawdown, Option.getD_none]
  · rw [treasuryBelowFloor_apply, htreasury, Option.getD_none]
  · rw [protocolsHaltedForSyncLag_apply, write, hsync]
  · simp [count_apply, hresets, hrevert]
  · simp [outOfRotation_apply, hresets, hrevert]

theorem Agree.trans {r : RouteKey} {s s' s'' : BreakerState} (h : Agree r s s')
    (h' : Agree r s' s'') : Agree r s s'' :=
  ⟨h.drawdown.trans h'.drawdown, h.treasury.trans h'.treasury, h.syncLag.trans h'.syncLag,
    h.count.trans h'.count, h.rotation.trans h'.rotation⟩

/-- Dropping every operation on other routes leaves the view of `r` unchanged. -/
theorem agree_run_filter (h : List BreakerOp) (r : RouteKey) :
    Agree r (run h) (run (h.filter (BreakerOp.concerns r))) := by
  induction h using List.reverseRecOn with
  | nil => exact ⟨rfl, rfl, rfl, rfl, rfl⟩
  | append_singleton h op ih =>
    rw [List.filter_append, run_concat]
    cases hc : op.concerns r with
    | true =>
      rw [List.filter_cons_of_pos hc, List.filter_nil, run_concat]
      exact ih.apply op
    | false =>
      rw [List.filter_cons_of_neg (by simp [hc]), List.filter_nil, List.append_nil]
      exact (agree_apply_other op hc (run h)).trans ih

/-- **History automaton.**  For every sequence of operations from `new()` with
fewer than `2^32` reverts on `r`, the answer for `r` is the one the history
dictates, and it stays the same when the operations on other routes are
taken out of the history. -/
theorem allows_is_history_automaton (h : List BreakerOp) (p : Protocol) (r : RouteKey)
    (hr : (h.filterMap (BreakerOp.revertOn r)).length < 2 ^ 32) :
    (run h).allows p r = checkOf h p r ∧
      (run (h.filter (BreakerOp.concerns r))).allows p r = (run h).allows p r :=
  ⟨allows_run h p r hr, ((agree_run_filter h r).allows_eq p).symm⟩

/-- Two routes, limits `3` and `2`: the second revert on the first route reaches
the lower limit, the other route stays allowed. -/
theorem allows_is_history_automaton_two_routes :
    let r : RouteKey := ⟨.kamino, Bytes32.fill 1, Bytes32.fill 2⟩
    let r' : RouteKey := ⟨.kamino, Bytes32.fill 2, Bytes32.fill 3⟩
    let h : List BreakerOp :=
      [.recordRevert r 3, .recordRevert r' 3, .setTreasuryBelowFloor true, .recordRevert r 2,
        .setTreasuryBelowFloor false]
    (run h).allows .kamino r = .halted .consecutiveRevert ∧
      (run h).allows .kamino r' = .allowed := by
  refine ⟨?_, ?_⟩
  · exact (allows_is_history_automaton _ _ _ (by decide)).1.trans (by decide)
  · exact (allows_is_history_automaton _ _ _ (by decide)).1.trans (by decide)

/-! ## Manual re-arm -/

/-- Along the operations, `r` is out of rotation in every state. -/
def StaysLockedOut (s : BreakerState) (r : RouteKey) (ops : List BreakerOp) : Prop :=
  ∀ before after, ops = before ++ after →
    (before.foldl apply s).outOfRotation r = true ∧
      ∀ p, (before.foldl apply s).allows p r ≠ .allowed

theorem allows_ne_allowed {s : BreakerState} {r : RouteKey} (h : s.outOfRotation r = true)
    (p : Protocol) : s.allows p r ≠ .allowed := by
  unfold outOfRotation at h
  unfold allows
  split_ifs <;> simp

theorem outOfRotation_of_halted {s : BreakerState} {p : Protocol} {r : RouteKey}
    (h : s.allows p r = .halted .consecutiveRevert) : s.outOfRotation r = true := by
  unfold allows at h
  split_ifs at h with hdrawdown htreasury hlag hout
  · cases h
  · cases h
  · cases h
  · exact hout

/-- A route that is out of rotation leaves it only by a reset. -/
theorem outOfRotation_foldl {r : RouteKey} (ops : List BreakerOp) {s : BreakerState}
    (h : s.outOfRotation r = true) (hops : ∀ op ∈ ops, op.resets r = false) :
    (ops.foldl apply s).outOfRotation r = true := by
  induction ops generalizing s with
  | nil => exact h
  | cons op ops ih =>
    have hop := hops op List.mem_cons_self
    refine ih ?_ fun op' hop' => hops op' (List.mem_cons_of_mem op hop')
    rw [outOfRotation_apply, hop, h]
    rfl

/-- **When manual re-arm is a latch.**  A route locked out for reverts stays out
through operations that do not re-arm it, if and only if none of them records a
success on it. -/
theorem staysLockedOut_iff (h : List BreakerOp) (p : Protocol) (r : RouteKey)
    (hlocked : (run h).allows p r = .halted .consecutiveRevert) (later : List BreakerOp)
    (hrearm : ∀ op ∈ later, op ≠ .rearmRoute r ∧ op ≠ .rearmAllRoutes) :
    StaysLockedOut (run h) r later ↔ BreakerOp.recordSuccess r ∉ later := by
  have hout := outOfRotation_of_halted hlocked
  constructor
  · intro hstays hsuccess
    obtain ⟨before, after, rfl⟩ := List.append_of_mem hsuccess
    have hlater := (hstays (before ++ [.recordSuccess r]) after (by simp)).1
    rw [List.foldl_append, List.foldl_cons, List.foldl_nil, outOfRotation_apply] at hlater
    simp [BreakerOp.resets] at hlater
  · intro hsuccess before after hsplit
    have hresets : ∀ op ∈ before, op.resets r = false := by
      intro op hop
      have hmem : op ∈ later := by
        rw [hsplit]
        exact List.mem_append_left after hop
      obtain ⟨hroute, hall⟩ := hrearm op hmem
      cases op with
      | recordSuccess r' =>
        exact decide_eq_false fun heq => hsuccess (heq ▸ hmem)
      | rearmRoute r' => exact decide_eq_false fun heq => hroute (congrArg _ heq)
      | rearmAllRoutes => exact absurd rfl hall
      | _ => rfl
    have hstill := outOfRotation_foldl before hout hresets
    exact ⟨hstill, allows_ne_allowed hstill⟩

/-- Three reverts, then a fourth and a success on another route. -/
theorem staysLockedOut_iff_reverts :
    let r : RouteKey := ⟨.kamino, Bytes32.fill 1, Bytes32.fill 2⟩
    let r' : RouteKey := ⟨.kamino, Bytes32.fill 2, Bytes32.fill 3⟩
    StaysLockedOut (run [.recordRevert r 3, .recordRevert r 3, .recordRevert r 3]) r
      [.recordRevert r 3, .recordSuccess r'] := by
  intro r r'
  refine (staysLockedOut_iff _ .kamino r (by decide) _ ?_).mpr (by decide)
  decide

/-- A bundle that was in flight at the lock-out lands: the route is allowed
again, and nobody has re-armed it. -/
theorem success_unlocks :
    let r : RouteKey := ⟨.kamino, Bytes32.fill 1, Bytes32.fill 2⟩
    let h : List BreakerOp := [.recordRevert r 3, .recordRevert r 3, .recordRevert r 3]
    (run h).allows .kamino r = .halted .consecutiveRevert ∧
      (run (h ++ [.recordSuccess r])).allows .kamino r = .allowed := by
  decide

end BreakerState

end Gyrfalcon
