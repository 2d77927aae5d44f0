import Gyrfalcon.Core
import Gyrfalcon.Lib.FreshestWrite
import Gyrfalcon.Lib.Machine

/-!
# Account-sync pipeline (`sim/src/account_sync.rs`)

The simulated account set, kept current by `apply_update`.  An update that is
older than what is stored is dropped, but still moves the pipeline's clock.
-/

namespace Gyrfalcon

open LastWrite (HashMap writesTo)

structure SlottedAccount where
  data : List UInt8
  slot : Nat
  deriving DecidableEq, Repr

structure AccountSyncPipeline where
  accounts : HashMap Pubkey SlottedAccount
  currentSlot : Nat

/-- The arguments of one call of `apply_update`. -/
structure SyncUpdate where
  pubkey : Pubkey
  data : List UInt8
  slot : Nat
  deriving DecidableEq, Repr

namespace AccountSyncPipeline

def new : AccountSyncPipeline := ⟨∅, 0⟩

def applyUpdate (self : AccountSyncPipeline) (update : SyncUpdate) :
    AccountSyncPipeline × Bool :=
  let self := { self with currentSlot := max self.currentSlot update.slot }
  let stored := { self with
    accounts := self.accounts.insert update.pubkey ⟨update.data, update.slot⟩ }
  match self.accounts.lookup update.pubkey with
  | some existing => if update.slot < existing.slot then (self, false) else (stored, true)
  | none => (stored, true)

def get (self : AccountSyncPipeline) (pubkey : Pubkey) : Option (List UInt8) :=
  (self.accounts.lookup pubkey).map SlottedAccount.data

def accountSlot (self : AccountSyncPipeline) (pubkey : Pubkey) : Option Nat :=
  (self.accounts.lookup pubkey).map SlottedAccount.slot

def accountLag (self : AccountSyncPipeline) (pubkey : Pubkey) : Option Nat :=
  (self.accounts.lookup pubkey).map fun account => self.currentSlot - account.slot

def len (self : AccountSyncPipeline) : Nat := self.accounts.keys.length

def isEmpty (self : AccountSyncPipeline) : Bool := self.len = 0

/-! ## One update -/

/-- What an update offers to the account map. -/
def accountWrite (update : SyncUpdate) : Option (Pubkey × SlottedAccount) :=
  some (update.pubkey, ⟨update.data, update.slot⟩)

variable (self : AccountSyncPipeline) (update : SyncUpdate)

/-- The account map keeps the freshest write. -/
theorem applyUpdate_accounts : (self.applyUpdate update).1.accounts =
    FreshestWrite.write accountWrite SlottedAccount.slot self.accounts update := by
  unfold applyUpdate FreshestWrite.write accountWrite
  dsimp only
  cases self.accounts.lookup update.pubkey with
  | none => rfl
  | some existing =>
    dsimp only
    split <;> rfl

/-- The clock moves with every update, dropped or not. -/
theorem applyUpdate_currentSlot :
    (self.applyUpdate update).1.currentSlot = max self.currentSlot update.slot := by
  unfold applyUpdate
  dsimp only
  cases self.accounts.lookup update.pubkey with
  | none => rfl
  | some existing =>
    dsimp only
    split <;> rfl

/-- An update is dropped exactly when it is older than what is stored. -/
theorem applyUpdate_eq_false_iff : (self.applyUpdate update).2 = false ↔
    ∃ stored, self.accountSlot update.pubkey = some stored ∧ update.slot < stored := by
  unfold applyUpdate accountSlot
  dsimp only
  cases self.accounts.lookup update.pubkey with
  | none => simp
  | some existing =>
    dsimp only
    split <;> simp_all

/-! ## Runs -/

/-- The pipeline after a sequence of updates, from `new()`. -/
def after (updates : List SyncUpdate) : AccountSyncPipeline :=
  Machine.final applyUpdate new updates

/-- `update` is, of the updates of the account `key`, the last one of the
largest slot. -/
def Freshest (key : Pubkey) (updates : List SyncUpdate) (update : SyncUpdate) : Prop :=
  ∃ before later, updates = before ++ update :: later ∧ update.pubkey = key ∧
    (∀ other ∈ before, other.pubkey = key → other.slot ≤ update.slot) ∧
    ∀ other ∈ later, other.pubkey = key → other.slot < update.slot

theorem after_accounts (updates : List SyncUpdate) : (after updates).accounts =
    updates.foldl (FreshestWrite.write accountWrite SlottedAccount.slot) ∅ :=
  Machine.final_map applyUpdate_accounts updates

theorem accountWrite_eq_some_iff (update : SyncUpdate) (key : Pubkey) (account : SlottedAccount) :
    accountWrite update = some (key, account) ↔
      update.pubkey = key ∧ account = ⟨update.data, update.slot⟩ := by
  simp [accountWrite, eq_comm]

/-- Each account holds its freshest update. -/
theorem lookup_after (updates : List SyncUpdate) (key : Pubkey) (account : SlottedAccount) :
    (after updates).accounts.lookup key = some account ↔
      ∃ update, Freshest key updates update ∧ account = ⟨update.data, update.slot⟩ := by
  rw [after_accounts, FreshestWrite.lookup_foldl_write_eq_some_iff]
  simp only [accountWrite_eq_some_iff, Freshest]
  constructor
  · rintro ⟨before, update, later, hsplit, ⟨hkey, rfl⟩, hbefore, hlater⟩
    exact ⟨update, ⟨before, later, hsplit, hkey,
      fun other hother hk => hbefore other hother _ ⟨hk, rfl⟩,
      fun other hother hk => hlater other hother _ ⟨hk, rfl⟩⟩, rfl⟩
  · rintro ⟨update, ⟨before, later, hsplit, hkey, hbefore, hlater⟩, rfl⟩
    refine ⟨before, update, later, hsplit, ⟨hkey, rfl⟩, ?_, ?_⟩
    · rintro other hother _ ⟨hk, rfl⟩
      exact hbefore other hother hk
    · rintro other hother _ ⟨hk, rfl⟩
      exact hlater other hother hk

/-- An account is there as soon as one update of it has been. -/
theorem lookup_after_isSome (updates : List SyncUpdate) (key : Pubkey) :
    ((after updates).accounts.lookup key).isSome ↔ ∃ update ∈ updates, update.pubkey = key := by
  rw [after_accounts, FreshestWrite.lookup_foldl_write, Extremum.maxBy, Extremum.scan_isSome,
    writesTo, Ne, List.filterMap_eq_nil_iff]
  simp [LastWrite.written, accountWrite]

/-- `slot` is the largest slot of all updates. -/
structure LargestSlot (updates : List SyncUpdate) (slot : Nat) : Prop where
  le : ∀ update ∈ updates, update.slot ≤ slot
  mem : updates ≠ [] → ∃ update ∈ updates, update.slot = slot
  zero : updates = [] → slot = 0

theorem largestSlot_unique {updates other : List SyncUpdate} {slot slot' : Nat}
    (h : updates.Perm other) (hslot : LargestSlot updates slot) (hslot' : LargestSlot other slot') :
    slot = slot' := by
  by_cases hnil : updates = []
  · subst hnil
    rw [hslot.zero rfl, hslot'.zero h.nil_eq.symm]
  · have hnil' : other ≠ [] := fun hother => hnil (by rw [hother] at h; exact h.eq_nil)
    obtain ⟨update, hmem, rfl⟩ := hslot.mem hnil
    obtain ⟨update', hmem', rfl⟩ := hslot'.mem hnil'
    have h1 := hslot'.le update (h.mem_iff.mp hmem)
    have h2 := hslot.le update' (h.mem_iff.mpr hmem')
    omega

/-- The clock counts every update, dropped ones included. -/
theorem largestSlot_after (updates : List SyncUpdate) :
    LargestSlot updates (after updates).currentSlot := by
  induction updates using List.reverseRecOn with
  | nil => exact ⟨by simp, fun h => absurd rfl h, fun _ => rfl⟩
  | append_singleton updates update ih =>
    have hclock : (after (updates ++ [update])).currentSlot =
        max (after updates).currentSlot update.slot := by
      rw [after, Machine.final_append]
      exact applyUpdate_currentSlot _ _
    rw [hclock]
    refine ⟨fun other hother => ?_, fun _ => ?_, by simp⟩
    · rcases List.mem_append.mp hother with hother | hother
      · exact (ih.le other hother).trans (Nat.le_max_left _ _)
      · rw [List.mem_singleton.mp hother]
        exact Nat.le_max_right _ _
    · by_cases hle : (after updates).currentSlot ≤ update.slot
      · exact ⟨update, by simp, (Nat.max_eq_right hle).symm⟩
      · have hnil : updates ≠ [] := fun hnil => hle (by rw [ih.zero hnil]; exact Nat.zero_le _)
        obtain ⟨other, hmem, hother⟩ := ih.mem hnil
        refine ⟨other, List.mem_append_left _ hmem, ?_⟩
        rw [hother, Nat.max_eq_left (by omega)]

/-- No account is ahead of the clock. -/
theorem accountSlot_le_currentSlot {updates : List SyncUpdate} {key : Pubkey} {slot : Nat}
    (h : (after updates).accountSlot key = some slot) : slot ≤ (after updates).currentSlot := by
  obtain ⟨account, haccount, rfl⟩ := Option.map_eq_some_iff.mp h
  obtain ⟨update, ⟨before, later, rfl, -⟩, rfl⟩ := (lookup_after _ _ _).mp haccount
  exact (largestSlot_after _).le update (by simp)

/-- Equal as maps, and the same clock. -/
structure SameState (a b : AccountSyncPipeline) : Prop where
  accounts : a.accounts.entries.Perm b.accounts.entries
  currentSlot : a.currentSlot = b.currentSlot

/-- **Order independence.** -/
theorem sameState_of_perm {updates other : List SyncUpdate} (h : updates.Perm other)
    (hslots : updates.Pairwise fun u v => u.pubkey = v.pubkey → u.slot ≠ v.slot) :
    SameState (after updates) (after other) := by
  have hlookup : ∀ key, (after updates).accounts.lookup key =
      (after other).accounts.lookup key := by
    intro key
    rw [after_accounts, after_accounts]
    refine FreshestWrite.lookup_foldl_write_perm _ _ _ h (List.pairwise_filterMap.mpr ?_)
    refine hslots.imp ?_
    intro u v huv a ha b hb
    rw [LastWrite.written_eq_some_iff, accountWrite_eq_some_iff] at ha hb
    obtain ⟨hu, rfl⟩ := ha
    obtain ⟨hv, rfl⟩ := hb
    exact huv (hu.trans hv.symm)
  refine ⟨?_, ?_⟩
  · refine List.lookup_ext (after updates).accounts.nodupKeys (after other).accounts.nodupKeys ?_
    intro key account
    exact Iff.of_eq (congrArg (account ∈ ·) (hlookup key))
  · exact largestSlot_unique h (largestSlot_after updates) (largestSlot_after other)

/-- **Convergence.**  After every sequence of updates each account holds the
last of its freshest updates, the clock is the largest slot of all updates, no
lag saturates, an update is dropped exactly when it is older than what is
stored, and the order of updates of different slots does not matter. -/
theorem converges_to_freshest (updates : List SyncUpdate) :
    (∀ key account, (after updates).accounts.lookup key = some account ↔
      ∃ update, Freshest key updates update ∧ account = ⟨update.data, update.slot⟩) ∧
    (∀ key, ((after updates).accounts.lookup key).isSome ↔
      ∃ update ∈ updates, update.pubkey = key) ∧
    LargestSlot updates (after updates).currentSlot ∧
    (∀ key slot, (after updates).accountSlot key = some slot →
      slot ≤ (after updates).currentSlot ∧
      (after updates).accountLag key = some ((after updates).currentSlot - slot)) ∧
    (∀ step ∈ Machine.steps applyUpdate new updates, step.output = false ↔
      ∃ stored, step.pre.accountSlot step.input.pubkey = some stored ∧ step.input.slot < stored) ∧
    (∀ other, updates.Perm other →
      (updates.Pairwise fun u v => u.pubkey = v.pubkey → u.slot ≠ v.slot) →
      SameState (after updates) (after other)) := by
  refine ⟨lookup_after updates, lookup_after_isSome updates, largestSlot_after updates, ?_, ?_, ?_⟩
  · intro key slot hslot
    refine ⟨accountSlot_le_currentSlot hslot, ?_⟩
    obtain ⟨account, haccount, rfl⟩ := Option.map_eq_some_iff.mp hslot
    rw [accountLag, haccount]
    rfl
  · intro step hstep
    obtain ⟨_, _, -, -, hstep⟩ := (Machine.mem_steps_iff _ _ _ _).mp hstep
    have hout : (step.pre.applyUpdate step.input).2 = step.output := by rw [hstep]
    rw [← hout]
    exact applyUpdate_eq_false_iff step.pre step.input
  · intro other hperm hslots
    exact sameState_of_perm hperm hslots

end AccountSyncPipeline

end Gyrfalcon
