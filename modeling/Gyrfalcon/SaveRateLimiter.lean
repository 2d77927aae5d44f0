import Gyrfalcon.Lib.Buckets
import Gyrfalcon.Lib.Machine
import Gyrfalcon.SaveMath

/-!
# The outflow rate limiter (`patches/solend-sdk/src/state/rate_limiter.rs`)

Outflow is counted in aligned windows of `window_duration` slots; the window
before the open one counts with the share of it that is still within reach.
The source promises less than twice `max_outflow` between
`cur_slot - window_duration` and `cur_slot`.  That holds for every
`window_duration` slots in a row; over the closed range, one slot more, the
bound itself can be reached (`outflow_within`).

A failed `update` has already opened the window of its slot.  `none` is a
panic.  The sums of slots are plain `+` and `-`: a build with overflow checks
panics where they leave 64 bits; the release build wraps, and opens a window that
reaches beyond 2^64 anew with every call.
-/

namespace Gyrfalcon

open FixedPoint Buckets

namespace Solend

/-- `+` at `u64`.  A build with overflow checks panics, `none`; one without wraps. -/
def u64Add (overflowChecks : Bool) (a b : UInt64) : Option UInt64 :=
  if overflowChecks ∧ 2 ^ 64 ≤ a.toNat + b.toNat then none else some (a + b)

/-- `-` at `u64`. -/
def u64Sub (overflowChecks : Bool) (a b : UInt64) : Option UInt64 :=
  if overflowChecks ∧ a < b then none else some (a - b)

namespace RateLimiter

/-! ## The limiter -/

def new (config : RateLimiterConfig) (curSlot : UInt64) : RateLimiter where
  config := config
  prevQty := .zero
  windowStart :=
    if config.windowDuration ≠ 0 then curSlot / config.windowDuration * config.windowDuration
    else curSlot
  curQty := .zero

/-- `RateLimiter::default()`, which lets everything through. -/
def default : RateLimiter :=
  .new { windowDuration := 1, maxOutflow := UInt64.ofNat (2 ^ 64 - 1) } 1

/-- Open the window of a slot. -/
def _update (overflowChecks : Bool) (self : RateLimiter) (curSlot : UInt64) :
    Option (Except LendingError RateLimiter) :=
  if curSlot < self.windowStart then some (.error .invalidAccountInput)
  else if self.config.windowDuration = 0 then none
  else
    let curSlotStart := curSlot / self.config.windowDuration * self.config.windowDuration
    (u64Add overflowChecks self.windowStart self.config.windowDuration).map fun nextStart =>
      if curSlotStart < nextStart then .ok self
      else if curSlotStart = nextStart then
        .ok { self with prevQty := self.curQty, windowStart := curSlotStart, curQty := .zero }
      else .ok { self with prevQty := .zero, windowStart := curSlotStart, curQty := .zero }

/-- `cur_slot - self.window_start + 1`. -/
def elapsed (overflowChecks : Bool) (self : RateLimiter) (curSlot : UInt64) : Option UInt64 := do
  u64Add overflowChecks (← u64Sub overflowChecks curSlot self.windowStart) 1

/-- The outflow of the open window and the weighted one of the window before. -/
def currentOutflow (overflowChecks : Bool) (self : RateLimiter) (curSlot : UInt64) :
    Option (Except LendingError Decimal) :=
  if self.config.windowDuration = 0 then some (.error .invalidAccountInput)
  else (self.elapsed overflowChecks curSlot).map fun elapsed => do
    let left ← (Decimal.ofNat self.config.windowDuration.toNat).trySub
      (Decimal.ofNat elapsed.toNat)
    let prevWeight ← left.tryDivU64 self.config.windowDuration.toNat
    let prev ← prevWeight.tryMul self.prevQty
    prev.tryAdd self.curQty

/-- What is left at a given outflow. -/
def remaining (self : RateLimiter) (curOutflow : Decimal) : Except LendingError Decimal :=
  if Decimal.ofNat self.config.maxOutflow.toNat < curOutflow then return .zero
  else (Decimal.ofNat self.config.maxOutflow.toNat).trySub curOutflow

/-- The counter after an outflow, or the refusal of it. -/
def accept (self : RateLimiter) (curOutflow qty : Decimal) : Except LendingError Decimal := do
  let total ← curOutflow.tryAdd qty
  if Decimal.ofNat self.config.maxOutflow.toNat < total then .error .outflowRateLimitExceeded
  else self.curQty.tryAdd qty

/-- Open the window of the slot, then read off the outflow there. -/
def atSlot {α : Type} (overflowChecks : Bool) (self : RateLimiter) (curSlot : UInt64)
    (k : RateLimiter → Decimal → RateLimiter × Except LendingError α) :
    Option (RateLimiter × Except LendingError α) :=
  match self._update overflowChecks curSlot with
  | none => none
  | some (.error e) => some (self, .error e)
  | some (.ok rolled) =>
    match rolled.currentOutflow overflowChecks curSlot with
    | none => none
    | some (.error e) => some (rolled, .error e)
    | some (.ok curOutflow) => some (k rolled curOutflow)

def remainingOutflow (overflowChecks : Bool) (self : RateLimiter) (curSlot : UInt64) :
    Option (RateLimiter × Except LendingError Decimal) :=
  if self.config.windowDuration = 0 then some (self, .ok (.ofNat u64Max))
  else self.atSlot overflowChecks curSlot fun rolled curOutflow =>
    (rolled, rolled.remaining curOutflow)

def update (overflowChecks : Bool) (self : RateLimiter) (curSlot : UInt64) (qty : Decimal) :
    Option (RateLimiter × Except LendingError Unit) :=
  if self.config.windowDuration = 0 then some (self, .ok ())
  else self.atSlot overflowChecks curSlot fun rolled curOutflow =>
    match rolled.accept curOutflow qty with
    | .error e => (rolled, .error e)
    | .ok curQty => ({ rolled with curQty }, .ok ())

/-! ## One call -/

/-- The two counters. -/
def view (self : RateLimiter) : State :=
  ⟨self.windowStart.toNat, self.prevQty.scaledVal, self.curQty.scaledVal⟩

/-- The window duration and the limit, as numbers. -/
def duration (self : RateLimiter) : Nat := self.config.windowDuration.toNat

def limit (self : RateLimiter) : Nat := wad * self.config.maxOutflow.toNat

variable {overflowChecks : Bool} {self rolled : RateLimiter} {slot : UInt64}
  {qty curOutflow : Decimal}

theorem duration_pos (h : self.config.windowDuration ≠ 0) : 0 < self.duration :=
  Nat.pos_of_ne_zero fun h0 => h (UInt64.toNat_inj.mp h0)

theorem toNat_align (slot duration : UInt64) :
    (slot / duration * duration).toNat = slot.toNat / duration.toNat * duration.toNat := by
  have hle := Nat.div_mul_le_self slot.toNat duration.toNat
  have hlt := slot.toNat_lt
  rw [UInt64.toNat_mul, UInt64.toNat_div, Nat.mod_eq_of_lt (by omega)]

/-- A slot and the window after it stay within 64 bits, or the build checks. -/
def InRange (overflowChecks : Bool) (window : UInt64) (slot : Nat) : Prop :=
  overflowChecks = true ∨ slot + window.toNat < 2 ^ 64

instance (window : UInt64) (slot : Nat) : Decidable (InRange overflowChecks window slot) :=
  inferInstanceAs (Decidable (_ ∨ _))

theorem InRange.mono {window : UInt64} {slot slot' : Nat} (hle : slot' ≤ slot)
    (h : InRange overflowChecks window slot) : InRange overflowChecks window slot' :=
  h.imp_right fun hlt => by omega

theorem toNat_of_u64Add {a b c : UInt64} (h : u64Add overflowChecks a b = some c)
    (hrange : InRange overflowChecks b a.toNat) : c.toNat = a.toNat + b.toNat := by
  unfold u64Add at h
  split at h
  · cases h
  · next hfits =>
    obtain rfl := Option.some.inj h
    have hlt : a.toNat + b.toNat < 2 ^ 64 := by
      rcases hrange with rfl | hlt
      · simpa using hfits
      · exact hlt
    rw [UInt64.toNat_add, Nat.mod_eq_of_lt hlt]

theorem toNat_of_u64Sub {a b c : UInt64} (h : u64Sub overflowChecks a b = some c)
    (hle : b ≤ a) : c.toNat = a.toNat - b.toNat := by
  rw [u64Sub, if_neg fun hlt => UInt64.not_lt.mpr hle hlt.2] at h
  obtain rfl := Option.some.inj h
  exact UInt64.toNat_sub_of_le a b hle

/-- `_update` rolls the counters to the window of the slot. -/
theorem of_update_eq_ok (hrange : InRange overflowChecks self.config.windowDuration
      self.windowStart.toNat) (h : self._update overflowChecks slot = some (.ok rolled)) :
    self.windowStart.toNat ≤ slot.toNat ∧ self.config.windowDuration ≠ 0 ∧
      rolled.config = self.config ∧ rolled.view = self.view.roll self.duration slot.toNat := by
  unfold _update at h
  split at h
  · cases h
  · next hstart =>
    have hle : self.windowStart.toNat ≤ slot.toNat :=
      UInt64.le_iff_toNat_le.mp (UInt64.not_lt.mp hstart)
    split at h
    · cases h
    · next hzero =>
      obtain ⟨nextStart, hadd, h⟩ := Option.map_eq_some_iff.mp h
      have hnext := toNat_of_u64Add hadd hrange
      have hlt_iff : slot / self.config.windowDuration * self.config.windowDuration < nextStart ↔
          slot.toNat / self.duration * self.duration < self.view.start + self.duration := by
        rw [UInt64.lt_iff_toNat_lt, toNat_align, hnext]
        rfl
      have heq_iff : slot / self.config.windowDuration * self.config.windowDuration = nextStart ↔
          slot.toNat / self.duration * self.duration = self.view.start + self.duration := by
        rw [← UInt64.toNat_inj, toNat_align, hnext]
        rfl
      refine ⟨hle, hzero, ?_⟩
      split at h
      · next hlt =>
        obtain rfl := Except.ok.inj h
        exact ⟨rfl, by rw [State.roll, if_pos (hlt_iff.mp hlt)]⟩
      · next hlt =>
        rw [State.roll, if_neg (mt hlt_iff.mpr hlt)]
        split at h
        · next heq =>
          obtain rfl := Except.ok.inj h
          rw [if_pos (heq_iff.mp heq), view, toNat_align]
          exact ⟨rfl, rfl⟩
        · next hne =>
          obtain rfl := Except.ok.inj h
          rw [if_neg (mt heq_iff.mpr hne), view, toNat_align]
          exact ⟨rfl, rfl⟩

/-- The window that is open after an `_update` starts no later than the slot. -/
theorem windowStart_le (h : self._update overflowChecks slot = some (.ok rolled)) :
    rolled.windowStart ≤ slot := by
  unfold _update at h
  split at h
  · cases h
  · next hstart =>
    have halign : slot / self.config.windowDuration * self.config.windowDuration ≤ slot := by
      rw [UInt64.le_iff_toNat_le, toNat_align]
      exact Nat.div_mul_le_self _ _
    split at h
    · cases h
    · obtain ⟨nextStart, -, h⟩ := Option.map_eq_some_iff.mp h
      split at h
      · obtain rfl := Except.ok.inj h
        exact UInt64.not_lt.mp hstart
      · split at h
        · obtain rfl := Except.ok.inj h
          exact halign
        · obtain rfl := Except.ok.inj h
          exact halign

/-- The weight of the window before, `elapsed` slots into the open one. -/
def weight (duration elapsed : Nat) : Nat := (wad * duration - wad * elapsed) / duration

theorem of_currentOutflow_eq_ok
    (h : self.currentOutflow overflowChecks slot = some (.ok curOutflow)) :
    ∃ elapsed, self.elapsed overflowChecks slot = some elapsed ∧ curOutflow.scaledVal =
      weight self.duration elapsed.toNat * self.view.prev / wad + self.view.cur := by
  unfold currentOutflow at h
  split at h
  · cases h
  · obtain ⟨elapsed, helapsed, hok⟩ := Option.map_eq_some_iff.mp h
    simp only [bind_eq_ok_iff, Decimal.trySub_eq_ok_iff, Decimal.tryDivU64_eq_ok_iff,
      Decimal.tryMul_eq_ok_iff, Decimal.tryAdd_eq_ok_iff] at hok
    obtain ⟨_, ⟨-, rfl⟩, _, ⟨-, rfl⟩, _, ⟨-, rfl⟩, -, rfl⟩ := hok
    exact ⟨elapsed, helapsed, rfl⟩

theorem toNat_of_elapsed {elapsed : UInt64} (hle : self.windowStart ≤ slot)
    (hrange : InRange overflowChecks 1 slot.toNat)
    (h : self.elapsed overflowChecks slot = some elapsed) :
    elapsed.toNat = slot.toNat - self.windowStart.toNat + 1 := by
  obtain ⟨diff, hsub, hadd⟩ := Option.bind_eq_some_iff.mp h
  have hdiff := toNat_of_u64Sub hsub hle
  rw [toNat_of_u64Add hadd (hrange.mono (by omega)), hdiff]
  rfl

theorem cur_le_currentOutflow
    (h : self.currentOutflow overflowChecks slot = some (.ok curOutflow)) :
    self.view.cur ≤ curOutflow.scaledVal := by
  obtain ⟨_, -, hcur⟩ := of_currentOutflow_eq_ok h
  rw [hcur]
  exact Nat.le_add_left _ _

/-- What a call at a slot comes to: nothing but perhaps the window changes, or
the continuation runs in the window of the slot. -/
theorem atSlot_cases {α : Type} {k : RateLimiter → Decimal → RateLimiter × Except LendingError α}
    {result : RateLimiter × Except LendingError α}
    (h : self.atSlot overflowChecks slot k = some result) :
    (∃ e, result = (self, .error e)) ∨
      ∃ rolled, self._update overflowChecks slot = some (.ok rolled) ∧
        ((∃ e, result = (rolled, .error e)) ∨ ∃ curOutflow,
          rolled.currentOutflow overflowChecks slot = some (.ok curOutflow) ∧
            result = k rolled curOutflow) := by
  unfold atSlot at h
  cases hroll : self._update overflowChecks slot with
  | none => simp [hroll] at h
  | some rolled =>
    cases rolled with
    | error e =>
      simp only [hroll, Option.some.injEq] at h
      exact Or.inl ⟨e, h.symm⟩
    | ok rolled =>
      simp only [hroll] at h
      refine Or.inr ⟨rolled, rfl, ?_⟩
      cases hout : rolled.currentOutflow overflowChecks slot with
      | none => simp [hout] at h
      | some out =>
        cases out with
        | error e =>
          simp only [hout, Option.some.injEq] at h
          exact Or.inl ⟨e, h.symm⟩
        | ok curOutflow =>
          simp only [hout, Option.some.injEq] at h
          exact Or.inr ⟨curOutflow, rfl, h.symm⟩

/-- An outflow is accepted when it fits beside the current one. -/
theorem accept_eq_ok_iff {curQty : Decimal} :
    self.accept curOutflow qty = .ok curQty ↔
      curOutflow.scaledVal + qty.scaledVal < u192Bound ∧
        curOutflow.scaledVal + qty.scaledVal ≤ self.limit ∧
          self.curQty.scaledVal + qty.scaledVal < u192Bound ∧
            ⟨self.curQty.scaledVal + qty.scaledVal⟩ = curQty := by
  unfold accept limit
  simp only [bind_eq_ok_iff, Decimal.tryAdd_eq_ok_iff]
  constructor
  · rintro ⟨total, ⟨hfits, rfl⟩, h⟩
    split at h
    · cases h
    · next hle =>
      rw [Decimal.lt_iff, Nat.not_lt] at hle
      exact ⟨hfits, hle, Decimal.tryAdd_eq_ok_iff.mp h⟩
  · rintro ⟨hfits, hle, h⟩
    refine ⟨_, ⟨hfits, rfl⟩, ?_⟩
    rw [if_neg (by rw [Decimal.lt_iff, Nat.not_lt]; exact hle)]
    exact Decimal.tryAdd_eq_ok_iff.mpr h

theorem remaining_eq_ok_iff {left : Decimal} :
    self.remaining curOutflow = .ok left ↔ left.scaledVal = self.limit - curOutflow.scaledVal := by
  unfold remaining limit
  split
  · next hlt =>
    rw [Decimal.lt_iff, Decimal.ofNat_scaledVal] at hlt
    rw [pure_eq_ok_iff]
    constructor
    · rintro rfl
      simp only [Decimal.zero_scaledVal]
      omega
    · intro h
      exact Decimal.ext (by simp only [Decimal.zero_scaledVal]; omega)
  · next hle =>
    rw [Decimal.lt_iff, Nat.not_lt, Decimal.ofNat_scaledVal] at hle
    rw [Decimal.trySub_eq_ok_iff, Decimal.ofNat_scaledVal]
    constructor
    · rintro ⟨-, rfl⟩
      rfl
    · intro h
      exact ⟨hle, Decimal.ext h.symm⟩

/-- **The query and the action agree.**  In every state of every build an outflow is
accepted exactly when it is within what `remaining_outflow` reports for its slot. -/
theorem update_accepts_iff (overflowChecks : Bool) (self : RateLimiter) (slot : UInt64)
    (qty : Decimal) (hduration : self.config.windowDuration ≠ 0) (hqty : Decimal.zero < qty) :
    (∃ after, self.update overflowChecks slot qty = some (after, .ok ())) ↔
      ∃ after left, self.remainingOutflow overflowChecks slot = some (after, .ok left) ∧
        qty ≤ left := by
  rw [Decimal.lt_iff, Decimal.zero_scaledVal] at hqty
  unfold update remainingOutflow
  rw [if_neg hduration, if_neg hduration]
  constructor
  · rintro ⟨after, h⟩
    rcases atSlot_cases h with ⟨e, h⟩ | ⟨rolled, hroll, ⟨e, h⟩ | ⟨curOutflow, hout, h⟩⟩
    · cases h
    · cases h
    · cases haccept : rolled.accept curOutflow qty with
      | error e => simp [haccept] at h
      | ok curQty =>
        obtain ⟨-, hle, -⟩ := accept_eq_ok_iff.mp haccept
        refine ⟨rolled, ⟨rolled.limit - curOutflow.scaledVal⟩, ?_, ?_⟩
        · simp only [atSlot, hroll, hout]
          rw [remaining_eq_ok_iff.mpr rfl]
        · rw [Decimal.le_iff]
          dsimp only
          omega
  · rintro ⟨after, left, h, hle⟩
    rcases atSlot_cases h with ⟨e, h⟩ | ⟨rolled, hroll, ⟨e, h⟩ | ⟨curOutflow, hout, h⟩⟩
    · cases h
    · cases h
    · have hleft := remaining_eq_ok_iff.mp (Prod.mk.inj h).2.symm
      have hcur := cur_le_currentOutflow hout
      rw [Decimal.le_iff, hleft] at hle
      have hlimit : rolled.limit < u192Bound := by
        have := rolled.config.maxOutflow.toNat_lt
        unfold limit wad u192Bound
        omega
      have hview : rolled.curQty.scaledVal = rolled.view.cur := rfl
      refine ⟨{ rolled with curQty := ⟨rolled.curQty.scaledVal + qty.scaledVal⟩ }, ?_⟩
      simp only [atSlot, hroll, hout]
      rw [accept_eq_ok_iff.mpr ⟨by omega, by omega, by omega, rfl⟩]

/-- Two slots into the first window, 40 of 100. -/
theorem update_accepts_iff_forty :
    ∃ after left, (new ⟨10, 100⟩ 10).remainingOutflow false 12 = some (after, .ok left) ∧
      Decimal.ofNat 40 ≤ left := by
  refine (update_accepts_iff false (new ⟨10, 100⟩ 10) 12 (.ofNat 40) (by decide) (by decide)).mp ?_
  refine ⟨{ new ⟨10, 100⟩ 10 with curQty := .ofNat 40 }, ?_⟩
  decide +kernel

/-! ## Runs -/

inductive Call where
  | update (slot : UInt64) (qty : Decimal)
  | remainingOutflow (slot : UInt64)

def Call.curSlot : Call → UInt64
  | .update slot _ => slot
  | .remainingOutflow slot => slot

/-- One call and the outflow it lets through, with its slot.  A call that panics
leaves everything as it was. -/
def step (overflowChecks : Bool) (self : RateLimiter) : Call → RateLimiter × Option (Nat × Nat)
  | .update slot qty =>
    match self.update overflowChecks slot qty with
    | none => (self, none)
    | some (after, .error _) => (after, none)
    | some (after, .ok ()) => (after, some (slot.toNat, qty.scaledVal))
  | .remainingOutflow slot =>
    match self.remainingOutflow overflowChecks slot with
    | none => (self, none)
    | some (after, _) => (after, none)

/-- What a sequence of calls lets through, in order. -/
def outflows (overflowChecks : Bool) (self : RateLimiter) (calls : List Call) : List (Nat × Nat) :=
  (Machine.outputs (step overflowChecks) self calls).filterMap id

/-- The counters are those of the outflow so far, which is within the limits. -/
structure Limited (overflowChecks : Bool) (config : RateLimiterConfig) (log : List (Nat × Nat))
    (limiter : RateLimiter) : Prop where
  config_eq : limiter.config = config
  start_inRange : InRange overflowChecks config.windowDuration limiter.windowStart.toNat
  tracks : Tracks limiter.duration log limiter.view
  blocks : BlocksWithin limiter.duration limiter.limit log
  slides : 0 < limiter.limit → limiter.duration ≤ wad →
    SlidesWithin limiter.duration limiter.limit log

variable {config : RateLimiterConfig} {log : List (Nat × Nat)}

theorem InRange.one {window : UInt64} {slot : Nat} (hwindow : window ≠ 0)
    (h : InRange overflowChecks window slot) : InRange overflowChecks 1 slot := by
  have hpos : 0 < window.toNat := Nat.pos_of_ne_zero fun h0 => hwindow (UInt64.toNat_inj.mp h0)
  exact h.imp_right fun hlt => Nat.lt_of_le_of_lt (Nat.add_le_add_left hpos slot) hlt

theorem Limited.new (h : config.windowDuration ≠ 0)
    (hslot : InRange overflowChecks config.windowDuration slot.toNat) :
    Limited overflowChecks config [] (new config slot) where
  config_eq := rfl
  start_inRange := by
    simp only [RateLimiter.new, if_pos h, toNat_align]
    exact hslot.mono (Nat.div_mul_le_self _ _)
  tracks := by
    refine ⟨?_, by simp, rfl, rfl⟩
    simp only [view, RateLimiter.new, duration, if_pos h, toNat_align]
    exact Dvd.intro_left _ rfl
  blocks _ := Nat.zero_le _
  slides hlimit _ _ := by
    simp only [sumIn]
    omega

theorem Limited.of_update_eq_ok (h : Limited overflowChecks config log self)
    (hroll : self._update overflowChecks slot = some (.ok rolled)) :
    self.windowStart.toNat ≤ slot.toNat ∧ self.config.windowDuration ≠ 0 ∧
      rolled.config = self.config ∧ rolled.view = self.view.roll self.duration slot.toNat :=
  RateLimiter.of_update_eq_ok (by rw [h.config_eq]; exact h.start_inRange) hroll

/-- Opening a window changes nothing that has been let through. -/
theorem Limited.roll (h : Limited overflowChecks config log self)
    (hslot : InRange overflowChecks config.windowDuration slot.toNat)
    (hroll : self._update overflowChecks slot = some (.ok rolled)) :
    Limited overflowChecks config log rolled := by
  obtain ⟨-, -, hconfig, hview⟩ := h.of_update_eq_ok hroll
  have hduration : rolled.duration = self.duration := by rw [duration, hconfig, duration]
  have hlimit : rolled.limit = self.limit := by rw [limit, hconfig, limit]
  refine ⟨hconfig.trans h.config_eq, ?_, ?_, ?_, ?_⟩
  · exact hslot.mono (UInt64.le_iff_toNat_le.mp (windowStart_le hroll))
  · rw [hduration, hview]
    exact h.tracks.roll
  · rw [hduration, hlimit]
    exact h.blocks
  · rw [hduration, hlimit]
    exact h.slides

/-- The window before weighs in, and if it is full something of it does, but in
the last slot of the open one. -/
theorem lt_limit_of_full (hduration : 0 < self.duration) (hwad : self.duration ≤ wad)
    (hlimit : 0 < self.limit) (hle : curOutflow.scaledVal + qty.scaledVal ≤ self.limit)
    (hstart : self.windowStart ≤ slot) (hrange : InRange overflowChecks 1 slot.toNat)
    (hout : self.currentOutflow overflowChecks slot = some (.ok curOutflow))
    (hslot : slot.toNat + 1 < self.view.start + self.duration)
    (hfull : self.view.prev = self.limit) : self.view.cur + qty.scaledVal < self.limit := by
  obtain ⟨elapsed, helapsed, hcur⟩ := of_currentOutflow_eq_ok hout
  rw [toNat_of_elapsed hstart hrange helapsed] at hcur
  have hview : self.view.start = self.windowStart.toNat := rfl
  rw [UInt64.le_iff_toNat_le] at hstart
  have hweight : 1 ≤ weight self.duration (slot.toNat - self.windowStart.toNat + 1) := by
    unfold weight
    rw [Nat.le_div_iff_mul_le hduration, one_mul, ← Nat.mul_sub]
    calc self.duration ≤ wad := hwad
      _ = wad * 1 := (mul_one wad).symm
      _ ≤ _ := Nat.mul_le_mul_left wad (by omega)
  have hprev : 1 ≤ weight self.duration (slot.toNat - self.windowStart.toNat + 1) *
      self.view.prev / wad := by
    rw [Nat.le_div_iff_mul_le wad_pos, one_mul, hfull]
    have hone : wad ≤ self.limit := by
      unfold limit at hlimit ⊢
      exact Nat.le_mul_of_pos_right wad (Nat.pos_of_mul_pos_left hlimit)
    exact hone.trans (Nat.le_mul_of_pos_left _ hweight)
  omega

/-- **An accepted outflow keeps the limits.** -/
theorem Limited.accept {curQty : Decimal} (h : Limited overflowChecks config log self)
    (hslot : InRange overflowChecks config.windowDuration slot.toNat)
    (hroll : self._update overflowChecks slot = some (.ok rolled))
    (hout : rolled.currentOutflow overflowChecks slot = some (.ok curOutflow))
    (haccept : rolled.accept curOutflow qty = .ok curQty) :
    Limited overflowChecks config (log ++ [(slot.toNat, qty.scaledVal)])
      { rolled with curQty } := by
  have hrolled := h.roll hslot hroll
  obtain ⟨hstart, hne, hconfig, hview⟩ := h.of_update_eq_ok hroll
  obtain ⟨-, hle, -, rfl⟩ := accept_eq_ok_iff.mp haccept
  have hpos : 0 < self.duration := duration_pos hne
  have hduration : rolled.duration = self.duration := by rw [duration, hconfig, duration]
  obtain ⟨hlo, hhi⟩ := roll_contains hpos h.tracks.aligned hstart
  rw [← hview] at hlo hhi
  rw [← hduration] at hhi hpos
  have hcur : rolled.view.cur + qty.scaledVal ≤ rolled.limit := by
    have := cur_le_currentOutflow hout
    omega
  have hone : InRange overflowChecks 1 slot.toNat := hslot.one (h.config_eq ▸ hne)
  refine ⟨hrolled.config_eq, hrolled.start_inRange, hrolled.tracks.add hlo hhi, ?_,
    fun hlimit hwad => ?_⟩
  · exact hrolled.blocks.add hrolled.tracks hlo hhi hcur
  · exact (hrolled.slides hlimit hwad).add hrolled.blocks hrolled.tracks hlo hhi hcur hlimit
      (lt_limit_of_full hpos hwad hlimit hle (windowStart_le hroll) hone hout)

/-- **One call.** -/
theorem Limited.step (hduration : config.windowDuration ≠ 0)
    (h : Limited overflowChecks config log self) (call : Call)
    (hslot : InRange overflowChecks config.windowDuration call.curSlot.toNat) :
    Limited overflowChecks config (log ++ (self.step overflowChecks call).2.toList)
      (self.step overflowChecks call).1 := by
  have hne : self.config.windowDuration ≠ 0 := h.config_eq ▸ hduration
  cases call with
  | update slot qty =>
    simp only [Call.curSlot] at hslot
    cases hcall : self.update overflowChecks slot qty with
    | none => simpa [RateLimiter.step, hcall] using h
    | some result =>
      have hat := hcall
      rw [RateLimiter.update, if_neg hne] at hat
      rcases atSlot_cases hat with ⟨e, rfl⟩ | ⟨rolled, hroll, ⟨e, rfl⟩ | ⟨out, hout, rfl⟩⟩
      · simpa [RateLimiter.step, hcall] using h
      · simpa [RateLimiter.step, hcall] using h.roll hslot hroll
      · cases haccept : rolled.accept out qty with
        | error e =>
          rw [haccept] at hcall
          simpa [RateLimiter.step, hcall] using h.roll hslot hroll
        | ok curQty =>
          rw [haccept] at hcall
          simpa [RateLimiter.step, hcall] using h.accept hslot hroll hout haccept
  | remainingOutflow slot =>
    simp only [Call.curSlot] at hslot
    cases hcall : self.remainingOutflow overflowChecks slot with
    | none => simpa [RateLimiter.step, hcall] using h
    | some result =>
      have hat := hcall
      rw [RateLimiter.remainingOutflow, if_neg hne] at hat
      rcases atSlot_cases hat with ⟨e, rfl⟩ | ⟨rolled, hroll, ⟨e, rfl⟩ | ⟨out, hout, rfl⟩⟩
      · simpa [RateLimiter.step, hcall] using h
      · simpa [RateLimiter.step, hcall] using h.roll hslot hroll
      · simpa [RateLimiter.step, hcall] using h.roll hslot hroll

/-- **Every run.** -/
theorem Limited.run (hduration : config.windowDuration ≠ 0)
    (hslot : InRange overflowChecks config.windowDuration slot.toNat) (calls : List Call)
    (hcalls : ∀ call ∈ calls, InRange overflowChecks config.windowDuration call.curSlot.toNat) :
    Limited overflowChecks config (outflows overflowChecks (RateLimiter.new config slot) calls)
      (Machine.final (RateLimiter.step overflowChecks) (RateLimiter.new config slot) calls) := by
  have hstep : ∀ (outputs : List (Option (Nat × Nat))) (limiter : RateLimiter) (call : Call),
      InRange overflowChecks config.windowDuration call.curSlot.toNat →
      Limited overflowChecks config (outputs.filterMap id) limiter →
        Limited overflowChecks config
          ((outputs ++ [(limiter.step overflowChecks call).2]).filterMap id)
          (limiter.step overflowChecks call).1 := by
    intro outputs limiter call hslot h
    have hcall := h.step hduration call hslot
    cases hout : (limiter.step overflowChecks call).2 with
    | none => simpa [List.filterMap_append, hout] using hcall
    | some entry => simpa [List.filterMap_append, hout] using hcall
  exact Machine.history_invariant_of_steps hstep (Limited.new hduration hslot) calls
    fun t ht => hcalls t.input (Machine.input_mem ht)

/-- **Outflow is limited.**  Whatever the calls, their slots and their order, any
`window_duration + 1` slots in a row let through at most twice `max_outflow`,
and any `window_duration` slots less than that: in a build with overflow checks
without exception, in one without them while a window after each slot is within
64 bits. -/
theorem outflow_within (overflowChecks : Bool) (config : RateLimiterConfig) (slot : UInt64)
    (calls : List Call) (hduration : config.windowDuration ≠ 0)
    (hslot : InRange overflowChecks config.windowDuration slot.toNat)
    (hcalls : ∀ call ∈ calls, InRange overflowChecks config.windowDuration call.curSlot.toNat)
    (t : Nat) :
    let log := (new config slot).outflows overflowChecks calls
    let window := config.windowDuration.toNat
    let limit := wad * config.maxOutflow.toNat
    sumIn (t - window) (t + 1) log ≤ 2 * limit ∧
      (0 < limit → window ≤ wad → sumIn (t + 1 - window) (t + 1) log < 2 * limit) := by
  intro log window limit
  have h := Limited.run hduration hslot calls hcalls
  have hconfig := h.config_eq
  have hblocks := h.blocks
  have hslides := h.slides
  rw [duration, RateLimiter.limit, hconfig] at hblocks hslides
  have hpos : 0 < window := Nat.pos_of_ne_zero fun h0 => hduration (UInt64.toNat_inj.mp h0)
  exact ⟨hblocks.closed_le hpos t, fun hlimit hwad => hslides hlimit hwad t⟩

/-- Ten slots, a limit of 100, no overflow checks: what is let through at the end of
one window and at the end of the next comes to 200 within eleven slots. -/
theorem outflow_within_reached :
    let config : RateLimiterConfig := ⟨10, 100⟩
    let calls : List Call :=
      [.update 19 (.ofNat 100), .update 28 (.ofNat 100), .remainingOutflow 29,
        .update 29 (.ofNat 100)]
    let log := (new config 10).outflows false calls
    sumIn 19 30 log = 2 * (wad * 100) ∧ sumIn 20 30 log < 2 * (wad * 100) := by
  intro config calls log
  have hlog : log = [(19, wad * 100), (29, wad * 100)] := by decide +kernel
  refine ⟨by rw [hlog]; decide, ?_⟩
  exact (outflow_within false config 10 calls (by decide) (by decide) (by decide) 29).2
    (by decide) (by decide)

-- within a window of 2^64 a build without the checks counts nothing
example :
    let slot : UInt64 := UInt64.ofNat (2 ^ 64 - 4)
    let calls : List Call := List.replicate 3 (.update slot (.ofNat 100))
    (new ⟨10, 100⟩ slot).outflows false calls = List.replicate 3 (2 ^ 64 - 4, wad * 100) ∧
      (new ⟨10, 100⟩ slot).outflows true calls = [] := by
  decide +kernel

end RateLimiter

end Solend

end Gyrfalcon
