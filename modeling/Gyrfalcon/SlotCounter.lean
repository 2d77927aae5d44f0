import Gyrfalcon.Daemon
import Gyrfalcon.KaminoBooks

/-!
# The slot counter of the loop (`gyrfalcon-bin/src/main.rs`)

`slot_counter = raw_acc.slot.max(slot_counter + 1)`: the counter follows the
accounts' slots but also advances by one on every account, and several accounts
come in one slot.  It is what the dashboard shows and what records are dated
with.  `slotsAreReal_iff` says for which feeds it never runs ahead of the chain.
-/

namespace Gyrfalcon

namespace Daemon

open KaminoAdapter

variable (d : Daemon)

/-! ## The counter of a run -/

/-- The dashboard shows the counter. -/
theorem step_currentSlot (s : LoopState) (item : FeedItem) :
    (d.step s item).1.dashboard.currentSlot = nextSlot s item := by
  obtain ⟨_, h, -, hslot, -⟩ | ⟨_, _, -, h, -, hslot⟩ := d.step_cases s item
  · rw [h]
    exact hslot
  · rw [h]
    exact hslot

theorem step_slotCounter (s : LoopState) (item : FeedItem) :
    (d.step s item).1.slotCounter = nextSlot s item := by
  obtain ⟨_, h, -⟩ | ⟨_, _, -, h, -⟩ := d.step_cases s item <;> rw [h]

theorem after_concat (router : MultiSourceRouter) (items : List FeedItem) (item : FeedItem) :
    d.after router (items ++ [item]) = (d.step (d.after router items) item).1 :=
  Machine.final_append _ _ _ _

/-- The counter, were it unbounded. -/
def counter (items : List FeedItem) : Nat :=
  items.foldl (fun slotCounter item => max item.rawAcc.slot (slotCounter + 1)) 300000000

theorem counter_concat (items : List FeedItem) (item : FeedItem) :
    counter (items ++ [item]) = max item.rawAcc.slot (counter items + 1) :=
  List.foldl_concat _ _ _ _

/-- The latest slot known: that of the newest account, or where the counter starts. -/
def latestSlot (items : List FeedItem) : Nat :=
  max 300000000 (highestSlot (items.map FeedItem.rawAcc))

theorem latestSlot_concat (items : List FeedItem) (item : FeedItem) :
    latestSlot (items ++ [item]) = max (latestSlot items) item.rawAcc.slot := by
  rw [latestSlot, List.map_append, List.map_singleton, highestSlot_concat, latestSlot, max_assoc]

theorem latestSlot_le_counter (items : List FeedItem) : latestSlot items ≤ counter items := by
  induction items using List.reverseRecOn with
  | nil => decide
  | append_singleton items item ih =>
    rw [latestSlot_concat, counter_concat]
    omega

/-- **Drift.**  The counter never runs ahead of the chain, if and only if every
account comes in a later slot than all before it, and after slot 300 000 000. -/
theorem counter_le_iff (items : List FeedItem) :
    (∀ before later, items = before ++ later → counter before ≤ latestSlot before) ↔
      ∀ before item later, items = before ++ item :: later →
        latestSlot before < item.rawAcc.slot := by
  refine Machine.forall_prefix_iff (by decide) (fun before item hle => ?_) items
  have hge := latestSlot_le_counter before
  rw [counter_concat, latestSlot_concat]
  omega

/-- No increment of the counter overflows. -/
def NoSlotOverflow (router : MultiSourceRouter) (items : List FeedItem) : Prop :=
  ∀ step ∈ Machine.steps d.step (d.start router) items, step.pre.slotCounter + 1 < 2 ^ 64

variable {d} {router : MultiSourceRouter} {items : List FeedItem}

theorem after_slotCounter (h : d.NoSlotOverflow router items) {before later : List FeedItem}
    (hsplit : items = before ++ later) :
    (d.after router before).slotCounter = counter before := by
  induction before using List.reverseRecOn generalizing later with
  | nil => rfl
  | append_singleton before item ih =>
    have hitems : items = before ++ item :: later := by simp [hsplit]
    have hstep := Machine.step_mem_steps d.step (d.start router) before item later
    rw [← hitems] at hstep
    have hbound : (d.after router before).slotCounter + 1 < 2 ^ 64 := h _ hstep
    have hbefore : (d.after router before).slotCounter = counter before := ih hitems
    rw [after_concat, step_slotCounter, nextSlot, counter_concat, Nat.mod_eq_of_lt hbound, hbefore]

/-! ## Recorded slots -/

variable (d)

/-- At every point of the run the dashboard's slot is known to the feed, and so is
the slot of a record just written, which is no earlier than the candidate's. -/
def SlotsAreReal (router : MultiSourceRouter) (items : List FeedItem) : Prop :=
  ∀ before item later, items = before ++ item :: later →
    (∀ submission, (d.step (d.after router before) item).2 = some submission →
      submission.record.routed.candidate.slot ≤ submission.record.submittedAtSlot ∧
        submission.record.submittedAtSlot ≤ latestSlot (before ++ [item])) ∧
    (d.step (d.after router before) item).1.dashboard.currentSlot ≤ latestSlot (before ++ [item])

variable {d}

/-- A record is dated with the counter, at or after its candidate. -/
theorem submittedAtSlot_of_step {s : LoopState} {item : FeedItem} {submission : Submission}
    (h : (d.step s item).2 = some submission) :
    submission.record.submittedAtSlot = nextSlot s item ∧
      submission.record.routed.candidate.slot ≤ nextSlot s item := by
  obtain ⟨routed, hfires, rfl⟩ := (d.step_snd_eq_some_iff _ _ _).mp h
  obtain ⟨-, -, hslot, -, -⟩ := KaminoAdapter.of_onAccountUpdate_some hfires.candidate
  refine ⟨rfl, ?_⟩
  show routed.candidate.slot ≤ nextSlot s item
  rw [hslot]
  exact Nat.le_max_left _ _

/-- **When recorded slots are real.**  In a run without overflow, every recorded
and displayed slot is known to the feed, if and only if every account comes in
a later slot than all before it, and after slot 300 000 000. -/
theorem slotsAreReal_iff (d : Daemon) (router : MultiSourceRouter) (items : List FeedItem)
    (h : d.NoSlotOverflow router items) :
    d.SlotsAreReal router items ↔
      ∀ before item later, items = before ++ item :: later →
        max 300000000 (highestSlot (before.map FeedItem.rawAcc)) < item.rawAcc.slot := by
  have hnext : ∀ before item later, items = before ++ item :: later →
      nextSlot (d.after router before) item = counter (before ++ [item]) := by
    intro before item later hsplit
    rw [← after_slotCounter h (show items = (before ++ [item]) ++ later by simp [hsplit]),
      after_concat, step_slotCounter]
  refine Iff.trans ?_ (counter_le_iff items)
  constructor
  · intro hreal before later hsplit
    rcases List.eq_nil_or_concat before with rfl | ⟨before, item, rfl⟩
    · decide
    · rw [List.concat_eq_append] at hsplit ⊢
      have hitems : items = before ++ item :: later := by simp [hsplit]
      have hcurrent := (hreal before item later hitems).2
      rwa [step_currentSlot, hnext before item later hitems] at hcurrent
  · intro hle before item later hsplit
    have hbound := hle (before ++ [item]) later (by simp [hsplit])
    rw [← hnext before item later hsplit] at hbound
    refine ⟨fun submission hsubmission => ?_, ?_⟩
    · obtain ⟨hdate, hcandidate⟩ := submittedAtSlot_of_step hsubmission
      rw [hdate]
      exact ⟨hcandidate, hbound⟩
    · rw [step_currentSlot]
      exact hbound

/-- The router of the closed examples: one reserve of mint 2. -/
def slotRouter : MultiSourceRouter :=
  MultiSourceRouter.new.addReserve (Bytes32.fill 4) .kamino (Bytes32.fill 2) 1000000000000 (some 0)

/-- A market, a reserve and a breached obligation, each in its own slot. -/
def slotFeed (market reserve obligation : Nat) : List FeedItem :=
  [⟨Klend.sampleMarket market, .notIncluded⟩, ⟨Klend.sampleReserve 1 reserve, .notIncluded⟩,
    ⟨Klend.sampleObligation (Bytes32.fill 5) obligation, .notIncluded⟩]

/-- One account per slot: the submission is dated with its own slot. -/
theorem slotsAreReal_one_account_per_slot :
    let d := Daemon.sample 3 (by decide)
    let items := slotFeed 300000001 300000002 300000003
    d.SlotsAreReal slotRouter items ∧
      (d.submissions slotRouter items).map (fun s => s.record.submittedAtSlot) = [300000003] := by
  intro d items
  refine ⟨(slotsAreReal_iff d slotRouter items ?_).mpr ?_, by decide +kernel⟩
  · unfold NoSlotOverflow
    decide +kernel
  · intro before item later hsplit
    rcases before with _ | ⟨a, _ | ⟨b, _ | ⟨c, rest⟩⟩⟩ <;>
      simp only [items, slotFeed, List.nil_append, List.cons_append, List.cons.injEq] at hsplit
    · obtain ⟨rfl, rfl⟩ := hsplit
      decide
    · obtain ⟨rfl, rfl, rfl⟩ := hsplit
      decide
    · obtain ⟨rfl, rfl, rfl, rfl⟩ := hsplit
      decide
    · simp at hsplit

/-- Three accounts of slot 300 000 010: the submission is dated two slots into the
future, and the dashboard shows it. -/
theorem record_dated_ahead_of_the_chain :
    let d := Daemon.sample 3 (by decide)
    let items := slotFeed 300000010 300000010 300000010
    d.mode = .live ∧ d.NoSlotOverflow slotRouter items ∧
      (d.submissions slotRouter items).map (fun s => s.record.submittedAtSlot) = [300000012] ∧
      (d.after slotRouter items).dashboard.currentSlot = 300000012 ∧
      latestSlot items = 300000010 ∧ ¬ d.SlotsAreReal slotRouter items := by
  intro d items
  have hover : d.NoSlotOverflow slotRouter items := by
    unfold NoSlotOverflow
    decide +kernel
  refine ⟨rfl, hover, by decide +kernel, by decide +kernel, by decide +kernel, fun h => ?_⟩
  have hcurrent := (h [⟨Klend.sampleMarket 300000010, .notIncluded⟩] _ _ rfl).2
  revert hcurrent
  decide +kernel

end Daemon

end Gyrfalcon
