import Gyrfalcon.KaminoRuns
import Mathlib.Data.Finset.Card

/-!
# The adapter's own books

Two figures of `KaminoAdapter` that the dashboard and the breakers read:
`sync_lag_slots`, and the table of known obligations behind `position_count`
and `close_factor`.  For each, when it is what its name promises.
-/

namespace Gyrfalcon

namespace KaminoAdapter

variable (klend : Klend.Interface)

/-! ## Slots -/

/-- The highest slot of a sequence of updates, zero if there is none. -/
def highestSlot (updates : List AccountUpdate) : Nat :=
  updates.foldl (fun slot update => max slot update.slot) 0

def kaminoOwned (update : AccountUpdate) : Bool := update.owner = kaminoProgramId

/-- The update carries one of the three discriminators. -/
def recognised (update : AccountUpdate) : Bool := (kindOf klend update).isSome

/-- The update decodes as a `Reserve`, a `LendingMarket` or an `Obligation`. -/
def decoded (update : AccountUpdate) : Bool :=
  decodesAs klend .reserve update || decodesAs klend .lendingMarket update ||
    decodesAs klend .obligation update

/-- The slot of the last recognised update, zero if there is none. -/
def lastRecognisedSlot (updates : List AccountUpdate) : Nat :=
  ((updates.filter (recognised klend)).getLast?.map AccountUpdate.slot).getD 0

theorem highestSlot_concat (updates : List AccountUpdate) (update : AccountUpdate) :
    highestSlot (updates ++ [update]) = max (highestSlot updates) update.slot := by
  unfold highestSlot
  rw [List.foldl_append, List.foldl_cons, List.foldl_nil]

theorem slot_le_highestSlot {updates : List AccountUpdate} {update : AccountUpdate}
    (h : update ∈ updates) : update.slot ≤ highestSlot updates := by
  induction updates using List.reverseRecOn with
  | nil => simp at h
  | append_singleton updates last ih =>
    rw [highestSlot_concat]
    rcases List.mem_append.mp h with h | h
    · exact (ih h).trans (Nat.le_max_left _ _)
    · rw [List.mem_singleton.mp h]
      exact Nat.le_max_right _ _

theorem highestSlot_le {updates : List AccountUpdate} {bound : Nat}
    (h : ∀ update ∈ updates, update.slot ≤ bound) : highestSlot updates ≤ bound := by
  induction updates using List.reverseRecOn with
  | nil => exact Nat.zero_le bound
  | append_singleton updates last ih =>
    rw [highestSlot_concat]
    refine Nat.max_le.mpr ⟨ih fun update hmem => h update ?_, h last ?_⟩
    · exact List.mem_append_left _ hmem
    · exact List.mem_append_right _ (List.mem_singleton_self last)

variable {klend}

theorem kaminoOwned_of_recognised {update : AccountUpdate} (h : recognised klend update = true) :
    kaminoOwned update = true := by
  obtain ⟨kind, hkind⟩ := Option.isSome_iff_exists.mp h
  exact decide_eq_true (owner_of_kindOf hkind)

theorem recognised_of_decoded {update : AccountUpdate} (h : decoded klend update = true) :
    recognised klend update = true := by
  unfold decoded decodesAs at h
  unfold recognised
  cases hkind : kindOf klend update with
  | none => simp [hkind] at h
  | some kind => rfl

/-! ## What the two counters hold -/

/-- Any recognised update sets the synced slot, decoded or not. -/
theorem onAccountUpdate_lastSyncedSlot (self : KaminoAdapter) (update : AccountUpdate) :
    (self.onAccountUpdate klend update).1.lastSyncedSlot =
      if recognised klend update then update.slot else self.lastSyncedSlot := by
  rw [onAccountUpdate_eq]
  unfold recognised
  cases hkind : kindOf klend update with
  | none =>
    simp only [Option.isSome_none, Bool.false_eq_true, ↓reduceIte]
    unfold seen
    split <;> rfl
  | some kind =>
    simp only [Option.isSome_some, ↓reduceIte]
    cases kind with
    | reserve => rfl
    | lendingMarket => rfl
    | obligation => exact (handleObligation_slots _ _ _ _).2

variable (klend)

theorem after_concat (updates : List AccountUpdate) (update : AccountUpdate) :
    after klend (updates ++ [update]) = ((after klend updates).onAccountUpdate klend update).1 := by
  unfold after
  rw [Machine.final_append, Machine.final_cons, Machine.final_nil]

theorem currentSlot_after (updates : List AccountUpdate) :
    (after klend updates).currentSlot = highestSlot (updates.filter kaminoOwned) := by
  induction updates using List.reverseRecOn with
  | nil => rfl
  | append_singleton updates update ih =>
    rw [after_concat, onAccountUpdate_currentSlot, ih, List.filter_append]
    by_cases howner : update.owner = kaminoProgramId
    · simp [kaminoOwned, howner, highestSlot_concat]
    · simp [kaminoOwned, howner]

theorem lastSyncedSlot_after (updates : List AccountUpdate) :
    (after klend updates).lastSyncedSlot = lastRecognisedSlot klend updates := by
  induction updates using List.reverseRecOn with
  | nil => rfl
  | append_singleton updates update ih =>
    rw [after_concat, onAccountUpdate_lastSyncedSlot, ih]
    unfold lastRecognisedSlot
    rw [List.filter_append]
    by_cases hrecognised : recognised klend update
    · simp [hrecognised]
    · simp [hrecognised]

theorem lastRecognisedSlot_le (updates : List AccountUpdate) :
    lastRecognisedSlot klend updates ≤ highestSlot (updates.filter kaminoOwned) := by
  unfold lastRecognisedSlot
  cases hlast : (updates.filter (recognised klend)).getLast? with
  | none => exact Nat.zero_le _
  | some update =>
    obtain ⟨hmem, hrecognised⟩ := List.mem_filter.mp (List.mem_of_getLast? hlast)
    exact slot_le_highestSlot
      (List.mem_filter.mpr ⟨hmem, kaminoOwned_of_recognised hrecognised⟩)

theorem highestSlot_decoded_le (updates : List AccountUpdate) :
    highestSlot (updates.filter (decoded klend)) ≤ highestSlot (updates.filter kaminoOwned) := by
  refine highestSlot_le fun update hupdate => ?_
  obtain ⟨hmem, hdecoded⟩ := List.mem_filter.mp hupdate
  exact slot_le_highestSlot (List.mem_filter.mpr
    ⟨hmem, kaminoOwned_of_recognised (recognised_of_decoded hdecoded)⟩)

/-- **When the lag measures the last confirmed decode.**  The counter holds the
slot of whichever recognised update came last: the lag is the distance from the
newest slot to the newest decoded one exactly when that update's slot is the
newest decoded one. -/
theorem syncLagSlots_confirmed_iff (updates : List AccountUpdate) :
    (after klend updates).syncLagSlots = highestSlot (updates.filter kaminoOwned) -
        highestSlot (updates.filter (decoded klend)) ↔
      lastRecognisedSlot klend updates = highestSlot (updates.filter (decoded klend)) := by
  have hlast := lastRecognisedSlot_le klend updates
  have hdecoded := highestSlot_decoded_le klend updates
  rw [syncLagSlots, currentSlot_after, lastSyncedSlot_after]
  omega

/-- A market decoded at slot 100 and again from an older slot: the lag reads 10
although slot 100 was confirmed.  A truncated reserve account at slot 200 after
it: the lag reads 0 although nothing past slot 100 was confirmed. -/
theorem syncLagSlots_unconfirmed :
    let rewound := [Klend.sampleMarket 100, Klend.sampleMarket 90]
    let truncated := [Klend.sampleMarket 100,
      ⟨Bytes32.fill 1, kaminoProgramId, [43, 242, 204, 202, 26, 247, 59, 127], 200⟩]
    (after Klend.sample rewound).syncLagSlots = 10 ∧
      highestSlot (rewound.filter kaminoOwned) -
        highestSlot (rewound.filter (decoded Klend.sample)) = 0 ∧
      (after Klend.sample truncated).syncLagSlots = 0 ∧
      highestSlot (truncated.filter kaminoOwned) -
        highestSlot (truncated.filter (decoded Klend.sample)) = 100 := by
  decide +kernel

/-! ## Obligations -/

/-- An obligation update that leaves through one of the `?` lookups: it decodes
and is liquidatable, but something it names has not been seen. -/
def Unresolved (self : KaminoAdapter) (update : AccountUpdate) : Prop :=
  ∃ obligation, kindOf klend update = some .obligation ∧
    klend.obligation update.data = some obligation ∧ liquidatable klend obligation = true ∧
    self.resolve obligation = none

/-- The repay amount an update's answer stands for. -/
def repayOf (output : Option (BreachCandidate ℚ)) : Nat :=
  (output.map BreachCandidate.closeFactorMaxRepay).getD 0

/-- The accounts that decoded as an obligation at least once. -/
def decodedKeys (updates : List AccountUpdate) : Finset Pubkey :=
  ((updates.filter (decodesAs klend .obligation)).map AccountUpdate.pubkey).toFinset

/-- The repay amount of the answer to the last decodable update of `key`. -/
def lastRepay (key : Pubkey) (updates : List AccountUpdate) : Option Nat :=
  ((Machine.steps (onAccountUpdate klend) new updates).filter fun step =>
      decodesAs klend .obligation step.input && step.input.pubkey = key).getLast?.map fun step =>
    repayOf step.output

/-- The books agree with the feed so far. -/
structure BooksCurrent (updates : List AccountUpdate) : Prop where
  positionCount : (after klend updates).positionCount = (decodedKeys klend updates).card
  closeFactor : ∀ key ∈ decodedKeys klend updates,
    lastRepay klend key updates = some ((after klend updates).closeFactor key)

/-! ## One update -/

variable {klend}

theorem seen_knownObligations (self : KaminoAdapter) (update : AccountUpdate) :
    (self.seen update).knownObligations = self.knownObligations := by
  unfold seen
  split <;> rfl

/-- What a decoded obligation does to the table: the nine exits of
`handle_obligation` are three. -/
theorem handleObligation_knownObligations (self : KaminoAdapter) (pubkey : Pubkey)
    {data : List UInt8} (slot : Nat) {obligation : Klend.Obligation}
    (hdata : klend.obligation data = some obligation) :
    (liquidatable klend obligation = true ∧ self.resolve obligation = none ∧
        self.handleObligation klend pubkey data slot = (self, none)) ∨
      (¬(liquidatable klend obligation = true ∧ self.resolve obligation = none) ∧
        (self.handleObligation klend pubkey data slot).1.knownObligations =
          self.knownObligations.insert pubkey
            ⟨slot, repayOf (self.handleObligation klend pubkey data slot).2⟩) := by
  rw [handleObligation_eq, hdata]
  by_cases hliquidatable : liquidatable klend obligation = true
  · cases hresolve : self.resolve obligation with
    | none =>
      left
      simp [hliquidatable, hresolve]
    | some resolved =>
      right
      simp [hliquidatable, hresolve, recordObligation, repayOf]
  · right
    simp [hliquidatable, recordObligation, repayOf]

/-- Only decoded obligations touch the table. -/
theorem onAccountUpdate_of_not_decodes (self : KaminoAdapter) {update : AccountUpdate}
    (h : decodesAs klend .obligation update = false) :
    (self.onAccountUpdate klend update).1.knownObligations = self.knownObligations := by
  rw [onAccountUpdate_eq]
  unfold decodesAs at h
  split
  · exact seen_knownObligations self update
  · rw [handleReserve_eq]
    exact seen_knownObligations self update
  · rw [handleLendingMarket_eq]
    exact seen_knownObligations self update
  · next hkind =>
    simp only [hkind, decide_true, Bool.true_and, Option.isSome_eq_false_iff,
      Option.isNone_iff_eq_none] at h
    rw [handleObligation_eq, h]
    exact seen_knownObligations self update

/-- A decoded obligation is recorded with its answer, unless it is unresolved. -/
theorem onAccountUpdate_of_decodes {self : KaminoAdapter} {update : AccountUpdate}
    (h : decodesAs klend .obligation update = true) :
    (Unresolved klend self update ∧
        (self.onAccountUpdate klend update).1.knownObligations = self.knownObligations ∧
        (self.onAccountUpdate klend update).2 = none) ∨
      (¬Unresolved klend self update ∧
        (self.onAccountUpdate klend update).1.knownObligations =
          self.knownObligations.insert update.pubkey
            ⟨update.slot, repayOf (self.onAccountUpdate klend update).2⟩) := by
  obtain ⟨hkind, hsome⟩ := (Bool.and_eq_true_iff).mp h
  have hkind := of_decide_eq_true hkind
  obtain ⟨obligation, hdata⟩ := Option.isSome_iff_exists.mp hsome
  rw [onAccountUpdate_eq]
  simp only [hkind]
  rcases handleObligation_knownObligations
    { self.seen update with lastSyncedSlot := update.slot } update.pubkey update.slot hdata with
    ⟨hliquidatable, hresolve, heq⟩ | ⟨hresolves, heq⟩
  · rw [resolve_seen] at hresolve
    rw [heq]
    exact Or.inl ⟨⟨obligation, hkind, hdata, hliquidatable, hresolve⟩,
      seen_knownObligations self update, rfl⟩
  · rw [resolve_seen] at hresolves
    refine Or.inr ⟨?_, heq.trans (congrArg (AList.insert _ _) (seen_knownObligations _ _))⟩
    rintro ⟨obligation', -, hdata', hliquidatable, hresolve⟩
    obtain rfl := Option.some.inj (hdata.symm.trans hdata')
    exact hresolves ⟨hliquidatable, hresolve⟩

/-! ## The books after one more update -/

variable (klend)

theorem decodedKeys_concat (updates : List AccountUpdate) (update : AccountUpdate) :
    decodedKeys klend (updates ++ [update]) =
      if decodesAs klend .obligation update then insert update.pubkey (decodedKeys klend updates)
      else decodedKeys klend updates := by
  unfold decodedKeys
  rw [List.filter_append, List.map_append]
  split
  · next h =>
    ext key
    simp [h]
  · next h => simp [h]

theorem lastRepay_concat (key : Pubkey) (updates : List AccountUpdate) (update : AccountUpdate) :
    lastRepay klend key (updates ++ [update]) =
      if decodesAs klend .obligation update = true ∧ update.pubkey = key then
        some (repayOf ((after klend updates).onAccountUpdate klend update).2)
      else lastRepay klend key updates := by
  unfold lastRepay
  rw [Machine.steps_append, List.filter_append, Machine.steps_cons, Machine.steps_nil]
  split
  · next h => simp [h, after]
  · next h =>
    have hfalse : (decodesAs klend .obligation update && decide (update.pubkey = key)) = false := by
      simpa using h
    simp [hfalse]

/-- The keys of the table. -/
def knownKeys (self : KaminoAdapter) : Finset Pubkey := self.knownObligations.keys.toFinset

theorem positionCount_eq_card (self : KaminoAdapter) :
    self.positionCount = self.knownKeys.card :=
  (List.toFinset_card_of_nodup self.knownObligations.keys_nodup).symm

theorem mem_knownKeys_iff (self : KaminoAdapter) (key : Pubkey) :
    key ∈ self.knownKeys ↔ (self.knownObligations.lookup key).isSome := by
  unfold knownKeys
  rw [List.mem_toFinset, AList.lookup_isSome]
  rfl

theorem knownKeys_of_insert {self after : KaminoAdapter} {key : Pubkey}
    {snapshot : ObligationSnapshot}
    (h : after.knownObligations = self.knownObligations.insert key snapshot) :
    after.knownKeys = insert key self.knownKeys := by
  ext other
  unfold knownKeys
  rw [h, List.mem_toFinset, Finset.mem_insert, List.mem_toFinset]
  exact AList.mem_insert self.knownObligations

/-- The table never holds an account that has not decoded. -/
theorem knownKeys_after_subset (updates : List AccountUpdate) :
    (after klend updates).knownKeys ⊆ decodedKeys klend updates := by
  induction updates using List.reverseRecOn with
  | nil => exact Finset.empty_subset _
  | append_singleton updates update ih =>
    rw [after_concat, decodedKeys_concat]
    split
    · next h =>
      rcases onAccountUpdate_of_decodes h with ⟨-, heq, -⟩ | ⟨-, heq⟩
      · rw [knownKeys, heq]
        exact ih.trans (Finset.subset_insert _ _)
      · rw [knownKeys_of_insert heq]
        exact Finset.insert_subset_insert _ ih
    · next h =>
      rw [knownKeys, onAccountUpdate_of_not_decodes _ (by simpa using h)]
      exact ih

/-- A count that is right is a table that is complete. -/
theorem booksCurrent_iff_keys (updates : List AccountUpdate) : BooksCurrent klend updates ↔
    (after klend updates).knownKeys = decodedKeys klend updates ∧
      ∀ key ∈ decodedKeys klend updates,
        lastRepay klend key updates = some ((after klend updates).closeFactor key) := by
  constructor
  · intro h
    refine ⟨Finset.eq_of_subset_of_card_le (knownKeys_after_subset klend updates) ?_,
      h.closeFactor⟩
    rw [← positionCount_eq_card, h.positionCount]
  · rintro ⟨hkeys, hrepay⟩
    exact ⟨by rw [positionCount_eq_card, hkeys], hrepay⟩

/-- The table already has the position, with nothing to repay. -/
def RecordedAtZero (self : KaminoAdapter) (key : Pubkey) : Prop :=
  (self.knownObligations.lookup key).map ObligationSnapshot.closeFactorMaxRepay = some 0

variable {klend}

theorem closeFactor_of_recordedAtZero {self : KaminoAdapter} {key : Pubkey}
    (h : self.RecordedAtZero key) : self.closeFactor key = 0 := by
  unfold closeFactor
  rw [h]
  rfl

theorem recordedAtZero_of_mem {self : KaminoAdapter} {key : Pubkey} (hmem : key ∈ self.knownKeys)
    (hzero : self.closeFactor key = 0) : self.RecordedAtZero key := by
  obtain ⟨snapshot, hlookup⟩ := Option.isSome_iff_exists.mp ((mem_knownKeys_iff self key).mp hmem)
  unfold closeFactor at hzero
  unfold RecordedAtZero
  rw [hlookup] at hzero ⊢
  exact congrArg some hzero

theorem RecordedAtZero.mem_knownKeys {self : KaminoAdapter} {key : Pubkey}
    (h : self.RecordedAtZero key) : key ∈ self.knownKeys := by
  refine (mem_knownKeys_iff self key).mpr ?_
  unfold RecordedAtZero at h
  cases hlookup : self.knownObligations.lookup key with
  | none => simp [hlookup] at h
  | some snapshot => rfl

/-- An update that is not a decoded obligation keeps the books as they are. -/
theorem booksCurrent_concat_of_not_decodes {updates : List AccountUpdate} {update : AccountUpdate}
    (h : decodesAs klend .obligation update = false) :
    BooksCurrent klend (updates ++ [update]) ↔ BooksCurrent klend updates := by
  have hknown := onAccountUpdate_of_not_decodes (after klend updates) h
  rw [booksCurrent_iff_keys, booksCurrent_iff_keys]
  simp only [decodedKeys_concat, lastRepay_concat, after_concat, h, knownKeys, closeFactor, hknown,
    Bool.false_eq_true, false_and, ↓reduceIte]

/-- A resolved obligation brings its own entry up to date. -/
theorem booksCurrent_concat_of_resolved {updates : List AccountUpdate} {update : AccountUpdate}
    (hdecodes : decodesAs klend .obligation update = true)
    (hknown : ((after klend updates).onAccountUpdate klend update).1.knownObligations =
      (after klend updates).knownObligations.insert update.pubkey
        ⟨update.slot, repayOf ((after klend updates).onAccountUpdate klend update).2⟩)
    (h : BooksCurrent klend updates) : BooksCurrent klend (updates ++ [update]) := by
  obtain ⟨hkeys, hrepay⟩ := (booksCurrent_iff_keys klend updates).mp h
  rw [booksCurrent_iff_keys, decodedKeys_concat, if_pos hdecodes, after_concat,
    knownKeys_of_insert hknown, hkeys]
  refine ⟨rfl, fun key hkey => ?_⟩
  rw [lastRepay_concat]
  unfold closeFactor
  rw [hknown]
  by_cases hsame : update.pubkey = key
  · subst hsame
    rw [if_pos ⟨hdecodes, rfl⟩, AList.lookup_insert]
    rfl
  · rw [if_neg fun hand => hsame hand.2, AList.lookup_insert_ne (Ne.symm hsame)]
    exact hrepay key (Finset.mem_of_mem_insert_of_ne hkey (Ne.symm hsame))

/-- An unresolved obligation leaves its old entry: right only if that is zero. -/
theorem booksCurrent_concat_of_unresolved {updates : List AccountUpdate} {update : AccountUpdate}
    (hdecodes : decodesAs klend .obligation update = true)
    (hknown : ((after klend updates).onAccountUpdate klend update).1.knownObligations =
      (after klend updates).knownObligations)
    (hnone : ((after klend updates).onAccountUpdate klend update).2 = none)
    (h : BooksCurrent klend updates) :
    BooksCurrent klend (updates ++ [update]) ↔
      (after klend updates).RecordedAtZero update.pubkey := by
  obtain ⟨hkeys, hrepay⟩ := (booksCurrent_iff_keys klend updates).mp h
  rw [booksCurrent_iff_keys, decodedKeys_concat, if_pos hdecodes, after_concat, knownKeys, hknown,
    ← knownKeys, hkeys]
  unfold closeFactor
  rw [hknown]
  constructor
  · rintro ⟨hinsert, hrepay'⟩
    have hmem : update.pubkey ∈ decodedKeys klend updates := by
      rw [hinsert]
      exact Finset.mem_insert_self _ _
    have hlast := hrepay' update.pubkey (Finset.mem_insert_self _ _)
    rw [lastRepay_concat, if_pos ⟨hdecodes, rfl⟩, hnone] at hlast
    exact recordedAtZero_of_mem (hkeys ▸ hmem) (Option.some.inj hlast).symm
  · intro hzero
    have hmem : update.pubkey ∈ decodedKeys klend updates := hkeys ▸ hzero.mem_knownKeys
    refine ⟨(Finset.insert_eq_of_mem hmem).symm, fun key hkey => ?_⟩
    rw [lastRepay_concat]
    by_cases hsame : update.pubkey = key
    · subst hsame
      rw [if_pos ⟨hdecodes, rfl⟩, hnone]
      exact congrArg some (closeFactor_of_recordedAtZero hzero).symm
    · rw [if_neg fun hand => hsame hand.2]
      exact hrepay key (Finset.mem_of_mem_insert_of_ne hkey (Ne.symm hsame))

/-- One more update keeps the books current, unless it is unresolved and was
not already recorded with nothing to repay. -/
theorem booksCurrent_concat_iff {updates : List AccountUpdate} (update : AccountUpdate)
    (h : BooksCurrent klend updates) :
    BooksCurrent klend (updates ++ [update]) ↔
      (Unresolved klend (after klend updates) update →
        (after klend updates).RecordedAtZero update.pubkey) := by
  cases hdecodes : decodesAs klend .obligation update with
  | false =>
    have hresolved : ¬Unresolved klend (after klend updates) update := by
      rintro ⟨obligation, hkind, hdata, -, -⟩
      simp [decodesAs, hkind, hdata] at hdecodes
    rw [booksCurrent_concat_of_not_decodes hdecodes]
    exact iff_of_true h fun hunresolved => absurd hunresolved hresolved
  | true =>
    rcases onAccountUpdate_of_decodes hdecodes with
      ⟨hunresolved, hknown, hnone⟩ | ⟨hresolved, hknown⟩
    · rw [booksCurrent_concat_of_unresolved hdecodes hknown hnone h]
      exact ⟨fun hzero _ => hzero, fun hzero => hzero hunresolved⟩
    · exact iff_of_true (booksCurrent_concat_of_resolved hdecodes hknown h)
        fun hunresolved => absurd hunresolved hresolved

/-! ## Every reachable state -/

/-- **When the obligation books are current.**  They agree with the feed in
every state of a run exactly when each unresolved obligation of the run, as it
comes in, is already in the table with nothing to repay. -/
theorem booksCurrent_reachable_iff (klend : Klend.Interface) (updates : List AccountUpdate) :
    (∀ seen rest, updates = seen ++ rest → BooksCurrent klend seen) ↔
      ∀ seen update rest, updates = seen ++ update :: rest →
        Unresolved klend (after klend seen) update →
          (after klend seen).RecordedAtZero update.pubkey := by
  refine Machine.forall_prefix_iff ⟨rfl, ?_⟩ (fun _ update h => booksCurrent_concat_iff update h) _
  intro key hkey
  exact absurd hkey (Finset.notMem_empty key)

/-- The obligation of account 5 breaches before its market and reserve have
been seen: it has decoded, but the table holds nothing. -/
theorem books_miss_unresolved_obligation :
    let updates := [Klend.sampleObligation (Bytes32.fill 5) 9]
    (after Klend.sample updates).positionCount = 0 ∧
      (decodedKeys Klend.sample updates).card = 1 ∧ ¬BooksCurrent Klend.sample updates := by
  intro updates
  have hcount : (after Klend.sample updates).positionCount = 0 := by decide +kernel
  have hcard : (decodedKeys Klend.sample updates).card = 1 := by decide +kernel
  refine ⟨hcount, hcard, fun h => ?_⟩
  have := h.positionCount
  omega

end KaminoAdapter

end Gyrfalcon
