import Gyrfalcon.Core
import Gyrfalcon.Lib.Expiry
import Mathlib.Data.List.DropRight

/-!
# Realized PnL (`treasury/src/pnl_ledger.rs`)

A queue of realized outcomes, summed over a window of slots for the drawdown
breaker and pruned from the front.  Outcomes need not arrive in slot order.
Pruning never changes a sum over a window that is still asked for
(`windowedSum_pruneOlderThan`, and `windowedSum_run` for a whole run); it
removes everything outside its own window only if no old outcome came in after a
recent one (`prunedToWindow_iff`).
-/

namespace Gyrfalcon

structure Entry where
  slot : Nat
  netUsd : ℚ
  deriving DecidableEq, Repr

structure PnlLedger where
  entries : List Entry
  deriving DecidableEq, Repr

namespace PnlLedger

def new : PnlLedger := ⟨[]⟩

def record (self : PnlLedger) (slot : Nat) (netUsd : ℚ) : PnlLedger :=
  ⟨self.entries ++ [⟨slot, netUsd⟩]⟩

def windowedSum (self : PnlLedger) (currentSlot windowSlots : Nat) : ℚ :=
  let cutoff := currentSlot - windowSlots
  ((self.entries.filter fun e => cutoff ≤ e.slot && e.slot ≤ currentSlot).map Entry.netUsd).sum

/-- The loop pops the front while it is older than the window, and stops at the
first entry that is not. -/
def pruneOlderThan (self : PnlLedger) (currentSlot windowSlots : Nat) : PnlLedger :=
  let cutoff := currentSlot - windowSlots
  ⟨self.entries.dropWhile fun front => front.slot < cutoff⟩

/-! ## Sums over later windows -/

/-- A window that starts no earlier has nothing in it that pruning may take. -/
theorem live_not_expired {c w c' w' : Nat} (h : c - w ≤ c' - w') (e : Entry)
    (hlive : (decide (c' - w' ≤ e.slot) && decide (e.slot ≤ c')) = true) :
    decide (e.slot < c - w) = false := by
  simp only [Bool.and_eq_true, decide_eq_true_eq] at hlive
  simp only [decide_eq_false_iff_not, not_lt]
  exact h.trans hlive.1

/-- **Pruning is invisible.**  It changes no sum over a window that starts where
its own does or later, and pruning again changes nothing. -/
theorem windowedSum_pruneOlderThan (ledger : PnlLedger) (c w : Nat) :
    (∀ c' w', c - w ≤ c' - w' →
      (ledger.pruneOlderThan c w).windowedSum c' w' = ledger.windowedSum c' w') ∧
    (ledger.pruneOlderThan c w).pruneOlderThan c w = ledger.pruneOlderThan c w := by
  constructor
  · intro c' w' h
    have hfilter := Expiry.filter_dropWhile (live_not_expired h) ledger.entries
    simp only [windowedSum, pruneOlderThan, hfilter]
  · simp only [pruneOlderThan, List.dropWhile_idempotent]

/-- Slot 600 was recorded behind slot 900; both still count, the expired slot 100 does not. -/
theorem windowedSum_pruneOlderThan_unordered :
    let ledger : PnlLedger := ⟨[⟨100, 50⟩, ⟨900, -10⟩, ⟨600, 30⟩]⟩
    (1000 - 500 ≤ 1000 - 450) ∧
      (ledger.pruneOlderThan 1000 500).windowedSum 1000 450 = 20 := by
  intro ledger
  refine ⟨by decide, ?_⟩
  rw [(windowedSum_pruneOlderThan ledger 1000 500).1 1000 450 (by decide)]
  decide +kernel

/-! ## Runs -/

inductive Op where
  | record (slot : Nat) (netUsd : ℚ)
  | prune (currentSlot windowSlots : Nat)
  deriving DecidableEq, Repr

def apply (self : PnlLedger) : Op → PnlLedger
  | .record slot netUsd => self.record slot netUsd
  | .prune currentSlot windowSlots => self.pruneOlderThan currentSlot windowSlots

/-- The ledger after `ops`, from an empty one. -/
def run (ops : List Op) : PnlLedger := ops.foldl apply new

def Op.isRecord : Op → Bool
  | .record _ _ => true
  | .prune _ _ => false

/-- An operation, as one on a queue that expires from the front. -/
def Op.queueOp : Op → Expiry.Op Entry
  | .record slot netUsd => .push ⟨slot, netUsd⟩
  | .prune currentSlot windowSlots =>
    .evict fun front => front.slot < currentSlot - windowSlots

theorem entries_apply (self : PnlLedger) (op : Op) :
    (self.apply op).entries = Expiry.apply self.entries op.queueOp := by
  cases op <;> rfl

theorem entries_run (ops : List Op) :
    (run ops).entries = (ops.map Op.queueOp).foldl Expiry.apply [] := by
  induction ops using List.reverseRecOn with
  | nil => rfl
  | append_singleton ops op ih =>
    have hrun : run (ops ++ [op]) = (run ops).apply op := List.foldl_concat _ _ _ _
    rw [hrun, entries_apply, ih, List.map_append, List.foldl_append]
    rfl

/-- The entries of a run that never prunes: all that were recorded, in order. -/
theorem entries_run_records (ops : List Op) :
    (run (ops.filter Op.isRecord)).entries =
      (ops.map Op.queueOp).filterMap Expiry.Op.pushed := by
  rw [entries_run]
  induction ops using List.reverseRecOn with
  | nil => rfl
  | append_singleton ops op ih =>
    rw [List.filter_append, List.map_append, List.foldl_append, ih, List.map_append,
      List.filterMap_append]
    cases op with
    | record slot netUsd => rfl
    | prune c w => exact (List.append_nil _).symm

/-- **Drawdown over a run.**  However recording and pruning alternate, the sum
over a window that starts after every window pruned to is the sum over all
outcomes ever recorded. -/
theorem windowedSum_run (ops : List Op) {c' w' : Nat}
    (h : ∀ c w, .prune c w ∈ ops → c - w ≤ c' - w') :
    (run ops).windowedSum c' w' = (run (ops.filter Op.isRecord)).windowedSum c' w' := by
  have hlive : ∀ expired, .evict expired ∈ ops.map Op.queueOp → ∀ e : Entry,
      (decide (c' - w' ≤ e.slot) && decide (e.slot ≤ c')) = true → expired e = false := by
    intro expired hmem
    obtain ⟨op, hop, heq⟩ := List.mem_map.mp hmem
    cases op with
    | record slot netUsd => cases heq
    | prune c w =>
      cases heq
      exact live_not_expired (h c w hop)
  have hfilter := Expiry.filter_run hlive []
  simp only [windowedSum, entries_run ops, entries_run_records, hfilter, List.nil_append]

/-! ## What pruning leaves -/

/-- The ledger after the given `record` calls. -/
def recordAll (calls : List (Nat × ℚ)) : PnlLedger :=
  calls.foldl (fun ledger call => ledger.record call.1 call.2) new

theorem entries_recordAll (calls : List (Nat × ℚ)) :
    (recordAll calls).entries = calls.map fun call => ⟨call.1, call.2⟩ := by
  induction calls using List.reverseRecOn with
  | nil => rfl
  | append_singleton calls call ih =>
    have hlast : recordAll (calls ++ [call]) = (recordAll calls).record call.1 call.2 :=
      List.foldl_concat _ _ _ _
    rw [hlast, List.map_append, ← ih]
    rfl

/-- After the calls and one prune, the entries are exactly those of the window,
in the order of the calls. -/
def PrunedToWindow (calls : List (Nat × ℚ)) (c w : Nat) : Prop :=
  ((recordAll calls).pruneOlderThan c w).entries =
    (recordAll calls).entries.filter fun e => c - w ≤ e.slot

/-- **When pruning bounds the ledger by its window.**  Exactly when no outcome
older than the window was recorded after one inside it. -/
theorem prunedToWindow_iff (calls : List (Nat × ℚ)) (c w : Nat) :
    PrunedToWindow calls c w ↔
      calls.Pairwise fun earlier later => later.1 < c - w → earlier.1 < c - w := by
  have hkept : (fun e : Entry => decide (c - w ≤ e.slot)) =
      fun e => !decide (e.slot < c - w) := by
    funext e
    simp only [← not_lt, decide_not]
  rw [PrunedToWindow, hkept, pruneOlderThan, Expiry.dropWhile_eq_filter_iff, entries_recordAll,
    List.pairwise_map]
  simp only [decide_eq_true_eq]

/-- An outcome of slot 100 that resolves after one of slot 900 stays in the ledger,
800 slots behind a window that starts at 500. -/
theorem prune_keeps_old_entry_behind_recent :
    ¬ PrunedToWindow [(900, 1), (100, 1)] 1000 500 ∧
      ((recordAll [(900, 1), (100, 1)]).pruneOlderThan 1000 500).entries =
        [⟨900, 1⟩, ⟨100, 1⟩] := by
  refine ⟨?_, by decide +kernel⟩
  unfold PrunedToWindow
  decide +kernel

end PnlLedger

end Gyrfalcon
