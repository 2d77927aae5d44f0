import Mathlib.Algebra.Order.Ring.Nat
import Mathlib.Tactic.Ring

/-!
# Sliding windows out of two buckets

Quantities arrive at positions, and two counters stand for the past: one for
the block of `w` positions that is open, one for the block before it.  `Tracks`
says that the counters are the sums of these blocks; rolling to the block of a
position and adding to the open one keep it.  A limit on every block bounds any
window of `w + 1` positions by twice the limit, since it meets two blocks only.
-/

namespace Buckets

/-! ## Sums over a range of positions -/

/-- The quantities at positions from `lo` up to `hi`, `hi` excluded. -/
def sumIn (lo hi : Nat) : List (Nat × Nat) → Nat
  | [] => 0
  | e :: log => (if lo ≤ e.1 ∧ e.1 < hi then e.2 else 0) + sumIn lo hi log

variable {log : List (Nat × Nat)} {lo hi mid lo' hi' : Nat}

theorem sumIn_concat (log : List (Nat × Nat)) (lo hi pos qty : Nat) :
    sumIn lo hi (log ++ [(pos, qty)]) =
      sumIn lo hi log + if lo ≤ pos ∧ pos < hi then qty else 0 := by
  induction log with
  | nil => simp [sumIn]
  | cons e log ih =>
    simp only [List.cons_append, sumIn, ih]
    omega

theorem sumIn_mono (hlo : lo' ≤ lo) (hhi : hi ≤ hi') : sumIn lo hi log ≤ sumIn lo' hi' log := by
  induction log with
  | nil => simp [sumIn]
  | cons e log ih =>
    simp only [sumIn]
    split
    · next h =>
      rw [if_pos ⟨hlo.trans h.1, Nat.lt_of_lt_of_le h.2 hhi⟩]
      omega
    · omega

theorem sumIn_split (hlo : lo ≤ mid) (hhi : mid ≤ hi) :
    sumIn lo hi log = sumIn lo mid log + sumIn mid hi log := by
  induction log with
  | nil => simp [sumIn]
  | cons e log ih =>
    have hpart : (if lo ≤ e.1 ∧ e.1 < hi then e.2 else 0) =
        (if lo ≤ e.1 ∧ e.1 < mid then e.2 else 0) + if mid ≤ e.1 ∧ e.1 < hi then e.2 else 0 := by
      by_cases h : e.1 < mid
      · rw [if_neg (show ¬ (mid ≤ e.1 ∧ e.1 < hi) by omega)]
        by_cases h' : lo ≤ e.1
        · rw [if_pos ⟨h', by omega⟩, if_pos ⟨h', h⟩, add_zero]
        · rw [if_neg (by omega), if_neg (by omega)]
      · rw [if_neg (show ¬ (lo ≤ e.1 ∧ e.1 < mid) by omega)]
        by_cases h' : e.1 < hi
        · rw [if_pos ⟨by omega, h'⟩, if_pos ⟨by omega, h'⟩]
          omega
        · rw [if_neg (by omega), if_neg (by omega)]
    simp only [sumIn, ih, hpart]
    omega

theorem sumIn_eq_zero (h : ∀ e ∈ log, ¬ (lo ≤ e.1 ∧ e.1 < hi)) : sumIn lo hi log = 0 := by
  induction log with
  | nil => rfl
  | cons e log ih =>
    rw [List.forall_mem_cons] at h
    rw [sumIn, if_neg h.1, ih h.2]

theorem sumIn_self : sumIn lo lo log = 0 := sumIn_eq_zero fun _ _ => by omega

/-- Nothing at or after `hi`, so a longer range has the same sum. -/
theorem sumIn_of_before (h : ∀ e ∈ log, e.1 < hi) : sumIn lo hi' log ≤ sumIn lo hi log := by
  induction log with
  | nil => simp [sumIn]
  | cons e log ih =>
    rw [List.forall_mem_cons] at h
    have := ih h.2
    simp only [sumIn]
    split
    · next hin =>
      rw [if_pos ⟨hin.1, h.1⟩]
      omega
    · omega

/-! ## Two counters -/

/-- The first position of the open block, and the sums of the block before it and
of the block itself. -/
structure State where
  start : Nat
  prev : Nat
  cur : Nat

/-- Open the block of a position. -/
def State.roll (w pos : Nat) (b : State) : State :=
  if pos / w * w < b.start + w then b
  else if pos / w * w = b.start + w then ⟨pos / w * w, b.cur, 0⟩
  else ⟨pos / w * w, 0, 0⟩

def State.add (qty : Nat) (b : State) : State := { b with cur := b.cur + qty }

/-- The counters are the sums of their blocks, and nothing lies beyond the open one. -/
structure Tracks (w : Nat) (log : List (Nat × Nat)) (b : State) : Prop where
  aligned : w ∣ b.start
  before : ∀ e ∈ log, e.1 < b.start + w
  prev : b.prev = sumIn (b.start - w) b.start log
  cur : b.cur = sumIn b.start (b.start + w) log

variable {w pos qty : Nat} {b : State}

/-- Blocks are ordered as their first positions are. -/
theorem block_le {j k : Nat} (h : w * j < w * k + w) : j ≤ k := by
  have hlt : w * j < w * (k + 1) := by
    rw [Nat.mul_succ]
    exact h
  exact Nat.le_of_lt_succ (Nat.lt_of_mul_lt_mul_left hlt)

/-- The position lies in the block that is open after rolling to it. -/
theorem roll_contains (hw : 0 < w) (hal : w ∣ b.start) (hpos : b.start ≤ pos) :
    (b.roll w pos).start ≤ pos ∧ pos < (b.roll w pos).start + w := by
  have hle : pos / w * w ≤ pos := Nat.div_mul_le_self pos w
  have hlt : pos < pos / w * w + w := by
    have := Nat.lt_div_mul_add hw (a := pos)
    omega
  unfold State.roll
  split
  · next h =>
    refine ⟨hpos, ?_⟩
    obtain ⟨k, hk⟩ := hal
    have hmul : pos / w * w = w * (pos / w) := mul_comm _ _
    have hle : w * (pos / w) ≤ w * k := Nat.mul_le_mul_left w (block_le (w := w) (by omega))
    omega
  · split
    · exact ⟨hle, hlt⟩
    · exact ⟨hle, hlt⟩

/-- **Rolling keeps the counters right.** -/
theorem Tracks.roll (h : Tracks w log b) : Tracks w log (b.roll w pos) := by
  have hal : w ∣ pos / w * w := Dvd.intro_left _ rfl
  unfold State.roll
  split
  · exact h
  · next hge =>
    have hbefore : ∀ e ∈ log, e.1 < pos / w * w + w := fun e he => by
      have := h.before e he
      omega
    have hempty : sumIn (pos / w * w) (pos / w * w + w) log = 0 := by
      refine sumIn_eq_zero fun e he => ?_
      have := h.before e he
      omega
    split
    · next heq =>
      refine ⟨hal, hbefore, ?_, hempty.symm⟩
      rw [heq, Nat.add_sub_cancel]
      exact h.cur
    · next hne =>
      refine ⟨hal, hbefore, (sumIn_eq_zero fun e he => ?_).symm, hempty.symm⟩
      have := h.before e he
      obtain ⟨k, hk⟩ := h.aligned
      have hmul : pos / w * w = w * (pos / w) := mul_comm _ _
      have hfar : w * (k + 2) ≤ w * (pos / w) := by
        refine Nat.mul_le_mul_left w (Nat.lt_of_not_le fun hnear => ?_)
        have := Nat.mul_le_mul_left w hnear
        rw [Nat.mul_add] at this
        omega
      rw [Nat.mul_add] at hfar
      dsimp only
      omega

/-- **Adding to the open block keeps the counters right.** -/
theorem Tracks.add (h : Tracks w log b) (hlo : b.start ≤ pos) (hhi : pos < b.start + w) :
    Tracks w (log ++ [(pos, qty)]) (b.add qty) where
  aligned := h.aligned
  before e he := by
    rcases List.mem_append.mp he with he | he
    · exact h.before e he
    · obtain rfl := List.mem_singleton.mp he
      exact hhi
  prev := by
    rw [sumIn_concat, if_neg (by simp [State.add]; omega)]
    exact h.prev
  cur := by
    rw [sumIn_concat, if_pos ⟨hlo, hhi⟩]
    simp only [State.add, h.cur]

/-! ## What a limit on every block gives -/

/-- No block sums to more than `max`. -/
def BlocksWithin (w max : Nat) (log : List (Nat × Nat)) : Prop :=
  ∀ k, sumIn (k * w) (k * w + w) log ≤ max

/-- Every window of `w` positions sums to less than twice `max`. -/
def SlidesWithin (w max : Nat) (log : List (Nat × Nat)) : Prop :=
  ∀ pos, sumIn (pos + 1 - w) (pos + 1) log < 2 * max

variable {max : Nat}

theorem Tracks.prev_le (h : Tracks w log b) (hwithin : BlocksWithin w max log) :
    b.prev ≤ max := by
  obtain ⟨k, hk⟩ := h.aligned
  rw [h.prev, hk]
  cases k with
  | zero => simp [sumIn_self]
  | succ k =>
    have := hwithin k
    rwa [Nat.mul_succ, Nat.add_sub_cancel, mul_comm]

/-- A window of `w + 1` positions meets two blocks. -/
theorem BlocksWithin.closed_le (hw : 0 < w) (h : BlocksWithin w max log) (pos : Nat) :
    sumIn (pos - w) (pos + 1) log ≤ 2 * max := by
  have hlt := Nat.lt_div_mul_add hw (a := pos)
  have hle : pos / w * w ≤ pos := Nat.div_mul_le_self pos w
  have hopen := h (pos / w)
  cases hk : pos / w with
  | zero =>
    rw [hk] at hlt hopen
    have hmono : sumIn (pos - w) (pos + 1) log ≤ sumIn (0 * w) (0 * w + w) log :=
      sumIn_mono (by omega) (by omega)
    omega
  | succ k =>
    rw [hk] at hlt hle hopen
    have hbefore := h k
    have hstep : (k + 1) * w = k * w + w := by ring
    calc sumIn (pos - w) (pos + 1) log
        ≤ sumIn (k * w) ((k + 1) * w + w) log := sumIn_mono (by omega) (by omega)
      _ = sumIn (k * w) ((k + 1) * w) log + sumIn ((k + 1) * w) ((k + 1) * w + w) log :=
        sumIn_split (by omega) (by omega)
      _ ≤ 2 * max := by
        rw [hstep] at hopen ⊢
        omega

/-- Adding within the limit keeps every block within it. -/
theorem BlocksWithin.add (h : BlocksWithin w max log) (htracks : Tracks w log b)
    (hlo : b.start ≤ pos) (hhi : pos < b.start + w) (hmax : b.cur + qty ≤ max) :
    BlocksWithin w max (log ++ [(pos, qty)]) := by
  intro k
  rw [sumIn_concat]
  obtain ⟨j, hj⟩ := htracks.aligned
  by_cases hin : k * w ≤ pos ∧ pos < k * w + w
  · have hmul : k * w = w * k := mul_comm k w
    have hkj : k = j := le_antisymm (block_le (w := w) (by omega)) (block_le (w := w) (by omega))
    have hstart : k * w = b.start := by rw [hj, hkj, mul_comm]
    rw [if_pos hin, hstart, ← htracks.cur]
    exact hmax
  · rw [if_neg hin]
    exact h k

/-- **Sliding windows.**  If what is added leaves room whenever the block before
is full and the position is not the last of its block, every window of `w`
positions stays below twice the limit. -/
theorem SlidesWithin.add (h : SlidesWithin w max log) (hwithin : BlocksWithin w max log)
    (htracks : Tracks w log b) (hlo : b.start ≤ pos) (hhi : pos < b.start + w)
    (hmax : b.cur + qty ≤ max) (hpos : 0 < max)
    (hroom : pos + 1 < b.start + w → b.prev = max → b.cur + qty < max) :
    SlidesWithin w max (log ++ [(pos, qty)]) := by
  intro t
  rw [sumIn_concat]
  by_cases hin : t + 1 - w ≤ pos ∧ pos < t + 1
  · rw [if_pos hin]
    by_cases hnext : b.start + w ≤ t
    · have hpart : sumIn (t + 1 - w) (t + 1) log ≤ b.cur := by
        rw [htracks.cur]
        exact (sumIn_of_before htracks.before).trans (sumIn_mono (by omega) le_rfl)
      omega
    · have hsplit : sumIn (t + 1 - w) (t + 1) log =
          sumIn (t + 1 - w) b.start log + sumIn b.start (t + 1) log :=
        sumIn_split (by omega) (by omega)
      have hcur : sumIn b.start (t + 1) log ≤ b.cur := by
        rw [htracks.cur]
        exact sumIn_mono le_rfl (by omega)
      by_cases hlast : t + 1 = b.start + w
      · have hnone : sumIn (t + 1 - w) b.start log = 0 := by
          rw [hlast, Nat.add_sub_cancel]
          exact sumIn_self
        omega
      · have hprev : sumIn (t + 1 - w) b.start log ≤ b.prev := by
          rw [htracks.prev]
          exact sumIn_mono (by omega) le_rfl
        have hle := htracks.prev_le hwithin
        have hroom' := hroom (by omega)
        omega
  · rw [if_neg hin]
    exact h t

end Buckets
