import Gyrfalcon.Kamino

/-!
# Delivery order of account updates

`handle_reserve` and `handle_lending_market` insert whatever arrives, so what
the adapter ends up with is what arrived last, not what is newest.  The two
coincide, and two orders of the same updates cannot be told apart, exactly when
the decodable updates of each account arrive in slot order.
-/

namespace Gyrfalcon

namespace KaminoAdapter

open LastWrite (writesTo Freshest)

variable (klend : Klend.Interface)

/-- The decodable updates of each account come in increasing slot order. -/
structure SlotOrdered (updates : List AccountUpdate) : Prop where
  reserves : ∀ k, (writesTo (reserveWrite klend) k updates).Pairwise fun a b => a.slot < b.slot
  markets : ∀ k, (writesTo (marketWrite klend) k updates).Pairwise fun a b => a.slot < b.slot

/-- The snapshots that a run from `new()` leaves behind are those of the highest
slot per account, and no step of the run replaces a snapshot by an older one. -/
structure FreshestWins (updates : List AccountUpdate) : Prop where
  reserves : ∀ k snapshot, (after klend updates).reserves.lookup k = some snapshot ↔
    Freshest (reserveWrite klend) k ReserveSnapshot.slot updates snapshot
  markets : ∀ k snapshot, (after klend updates).lendingMarkets.lookup k = some snapshot ↔
    Freshest (marketWrite klend) k LendingMarketSnapshot.slot updates snapshot
  reservesNeverOlder : ∀ step ∈ Machine.steps (onAccountUpdate klend) new updates,
    ∀ k old fresh, step.pre.reserves.lookup k = some old →
      step.post.reserves.lookup k = some fresh → old.slot ≤ fresh.slot
  marketsNeverOlder : ∀ step ∈ Machine.steps (onAccountUpdate klend) new updates,
    ∀ k old fresh, step.pre.lendingMarkets.lookup k = some old →
      step.post.lendingMarkets.lookup k = some fresh → old.slot ≤ fresh.slot

/-- Two deliveries of the same updates cannot be told apart, and both keep the
freshest snapshots. -/
structure OrderInsensitive (first second : List AccountUpdate) : Prop where
  reserves : ∀ k, (after klend first).reserves.lookup k = (after klend second).reserves.lookup k
  markets : ∀ k,
    (after klend first).lendingMarkets.lookup k = (after klend second).lendingMarkets.lookup k
  candidates : ∀ update, ((after klend first).onAccountUpdate klend update).2 =
    ((after klend second).onAccountUpdate klend update).2
  freshestFirst : FreshestWins klend first
  freshestSecond : FreshestWins klend second

/-! ## One map -/

section OneMap

variable {V : Type} {w : AccountUpdate → Option (Pubkey × V)} {slotOf : V → Nat}

/-- "Never older" along a run, as a fact about the values written. -/
theorem neverOlder_iff (w : AccountUpdate → Option (Pubkey × V)) (slotOf : V → Nat)
    (mapOf : KaminoAdapter → LastWrite.HashMap Pubkey V) (hnew : mapOf new = ∅)
    (hwrite : ∀ self update,
      mapOf (onAccountUpdate klend self update).1 = LastWrite.write w (mapOf self) update)
    (updates : List AccountUpdate) :
    (∀ step ∈ Machine.steps (onAccountUpdate klend) new updates, ∀ k old fresh,
        (mapOf step.pre).lookup k = some old → (mapOf step.post).lookup k = some fresh →
          slotOf old ≤ slotOf fresh) ↔
      ∀ k, (writesTo w k updates).Pairwise fun a b => slotOf a ≤ slotOf b := by
  have hafter : ∀ us, mapOf (Machine.final (onAccountUpdate klend) new us) =
      us.foldl (LastWrite.write w) ∅ := by
    intro us
    rw [Machine.final_map hwrite, hnew]
  simp only [← LastWrite.rank_le_iff_pairwise, ← hafter, ← hwrite]
  constructor
  · rintro h k us u rest rfl old fresh hold hfresh
    exact h _ (Machine.step_mem_steps _ _ us u rest) k old fresh hold hfresh
  · intro h step hstep k old fresh hold hfresh
    obtain ⟨us, rest, hsplit, hpre, hpost⟩ := (Machine.mem_steps_iff _ _ _ _).mp hstep
    rw [hpre] at hold hpost
    exact h k us step.input rest hsplit old fresh hold (by rw [hpost]; exact hfresh)

/-- A relation between the slots of each account's updates carries over to the
values written. -/
theorem pairwise_writesTo {R : Nat → Nat → Prop}
    (hslot : ∀ u k v, w u = some (k, v) → u.pubkey = k ∧ u.slot = slotOf v)
    {updates : List AccountUpdate}
    (h : updates.Pairwise fun u v => u.pubkey = v.pubkey → R u.slot v.slot) (k : Pubkey) :
    (writesTo w k updates).Pairwise fun a b => R (slotOf a) (slotOf b) := by
  refine List.pairwise_filterMap.mpr (h.imp ?_)
  intro u v huv a ha b hb
  rw [LastWrite.written_eq_some_iff] at ha hb
  obtain ⟨hku, hsu⟩ := hslot u k a ha
  obtain ⟨hkv, hsv⟩ := hslot v k b hb
  rw [← hsu, ← hsv]
  exact huv (hku.trans hkv.symm)

theorem pairwise_lt_of_le_of_ne {l : List V} (hle : l.Pairwise fun a b => slotOf a ≤ slotOf b)
    (hne : l.Pairwise fun a b => slotOf a ≠ slotOf b) :
    l.Pairwise fun a b => slotOf a < slotOf b :=
  hle.imp₂ (fun _ _ hle hne => Nat.lt_of_le_of_ne hle hne) hne

/-- In slot order, the last value written is the freshest. -/
theorem lookup_eq_some_iff_freshest {updates : List AccountUpdate} {k : Pubkey}
    (h : (writesTo w k updates).Pairwise fun a b => slotOf a < slotOf b) (v : V) :
    (updates.foldl (LastWrite.write w) ∅).lookup k = some v ↔ Freshest w k slotOf updates v := by
  rw [LastWrite.lookup_foldl_write_empty]
  exact LastWrite.getLast?_eq_some_iff_of_pairwise h v

end OneMap

/-! ## Both maps -/

theorem reserveWrite_eq_some {update : AccountUpdate} {k : Pubkey} {snapshot : ReserveSnapshot}
    (h : reserveWrite klend update = some (k, snapshot)) :
    update.pubkey = k ∧ update.slot = snapshot.slot := by
  unfold reserveWrite at h
  split at h
  · obtain ⟨reserve, -, heq⟩ := Option.map_eq_some_iff.mp h
    cases heq
    exact ⟨rfl, rfl⟩
  · cases h

theorem marketWrite_eq_some {update : AccountUpdate} {k : Pubkey}
    {snapshot : LendingMarketSnapshot} (h : marketWrite klend update = some (k, snapshot)) :
    update.pubkey = k ∧ update.slot = snapshot.slot := by
  unfold marketWrite at h
  split at h
  · obtain ⟨market, -, heq⟩ := Option.map_eq_some_iff.mp h
    cases heq
    exact ⟨rfl, rfl⟩
  · cases h

/-- A feed that delivers each account in slot order is in slot order whatever
its updates decode to. -/
theorem slotOrdered_of_pairwise {updates : List AccountUpdate}
    (h : updates.Pairwise fun u v => u.pubkey = v.pubkey → u.slot < v.slot) :
    SlotOrdered klend updates := by
  refine ⟨fun k => ?_, fun k => ?_⟩
  · exact pairwise_writesTo (R := (· < ·)) (fun _ _ _ => reserveWrite_eq_some klend) h k
  · exact pairwise_writesTo (R := (· < ·)) (fun _ _ _ => marketWrite_eq_some klend) h k

/-- One delivery: the freshest snapshots win exactly in slot order. -/
theorem freshestWins_iff {updates : List AccountUpdate}
    (hslots : updates.Pairwise fun u v => u.pubkey = v.pubkey → u.slot ≠ v.slot) :
    FreshestWins klend updates ↔ SlotOrdered klend updates := by
  have hreserves := neverOlder_iff klend (reserveWrite klend) ReserveSnapshot.slot reserves rfl
    onAccountUpdate_reserves updates
  have hmarkets := neverOlder_iff klend (marketWrite klend) LendingMarketSnapshot.slot
    lendingMarkets rfl onAccountUpdate_lendingMarkets updates
  constructor
  · intro h
    refine ⟨fun k => ?_, fun k => ?_⟩
    · exact pairwise_lt_of_le_of_ne (hreserves.mp h.reservesNeverOlder k)
        (pairwise_writesTo (R := (· ≠ ·)) (fun _ _ _ => reserveWrite_eq_some klend) hslots k)
    · exact pairwise_lt_of_le_of_ne (hmarkets.mp h.marketsNeverOlder k)
        (pairwise_writesTo (R := (· ≠ ·)) (fun _ _ _ => marketWrite_eq_some klend) hslots k)
  · intro h
    refine ⟨fun k v => ?_, fun k v => ?_, ?_, ?_⟩
    · rw [after_reserves]
      exact lookup_eq_some_iff_freshest (h.reserves k) v
    · rw [after_lendingMarkets]
      exact lookup_eq_some_iff_freshest (h.markets k) v
    · exact hreserves.mpr fun k => (h.reserves k).imp Nat.le_of_lt
    · exact hmarkets.mpr fun k => (h.markets k).imp Nat.le_of_lt

/-- **Delivery order.**  Two deliveries of the same updates, no two of one
account at the same slot, leave the same snapshots, those of the highest slot
per account, and never replace a fresher one, if and only if both deliver the
decodable updates of each account in slot order. -/
theorem orderInsensitive_iff_slotOrdered (klend : Klend.Interface)
    (first second : List AccountUpdate) (hperm : first.Perm second)
    (hslots : first.Pairwise fun u v => u.pubkey = v.pubkey → u.slot ≠ v.slot) :
    OrderInsensitive klend first second ↔
      SlotOrdered klend first ∧ SlotOrdered klend second := by
  have hslots' : second.Pairwise fun u v => u.pubkey = v.pubkey → u.slot ≠ v.slot :=
    hperm.pairwise hslots fun h heq => (h heq.symm).symm
  constructor
  · intro h
    exact ⟨(freshestWins_iff klend hslots).mp h.freshestFirst,
      (freshestWins_iff klend hslots').mp h.freshestSecond⟩
  · rintro ⟨hfirst, hsecond⟩
    have h1 := (freshestWins_iff klend hslots).mpr hfirst
    have h2 := (freshestWins_iff klend hslots').mpr hsecond
    have hreserves : ∀ k, (after klend first).reserves.lookup k =
        (after klend second).reserves.lookup k := by
      intro k
      ext snapshot
      rw [h1.reserves, h2.reserves, LastWrite.freshest_iff_of_perm hperm]
    have hmarkets : ∀ k, (after klend first).lendingMarkets.lookup k =
        (after klend second).lendingMarkets.lookup k := by
      intro k
      ext snapshot
      rw [h1.markets, h2.markets, LastWrite.freshest_iff_of_perm hperm]
    exact ⟨hreserves, hmarkets, onAccountUpdate_snd_congr klend hreserves hmarkets, h1, h2⟩

/-- A market between two updates of one reserve: moving the market does not
matter, the reserve is in slot order both times. -/
theorem orderInsensitive_of_moved_market :
    OrderInsensitive Klend.sample
      [Klend.sampleReserve 1 5, Klend.sampleMarket 7, Klend.sampleReserve 2 10]
      [Klend.sampleMarket 7, Klend.sampleReserve 1 5, Klend.sampleReserve 2 10] := by
  refine (orderInsensitive_iff_slotOrdered Klend.sample _ _ (List.Perm.swap _ _ _)
    (by decide)).mpr ⟨?_, ?_⟩
  · exact slotOrdered_of_pairwise _ (by decide)
  · exact slotOrdered_of_pairwise _ (by decide)

/-- A reserve at slot 10 overwritten by its own update of slot 5: the stale
price is kept, and it doubles the repay size of the next obligation. -/
theorem older_reserve_replaces_fresher :
    let first := [Klend.sampleMarket 7, Klend.sampleReserve 1 5, Klend.sampleReserve 2 10]
    let second := [Klend.sampleMarket 7, Klend.sampleReserve 2 10, Klend.sampleReserve 1 5]
    let obligation := Klend.sampleObligation (Bytes32.fill 5) 11
    let repay (updates : List AccountUpdate) :=
      ((after Klend.sample updates).onAccountUpdate Klend.sample obligation).2.map
        BreachCandidate.closeFactorMaxRepay
    let slotOf (updates : List AccountUpdate) :=
      ((after Klend.sample updates).reserves.lookup (Bytes32.fill 1)).map ReserveSnapshot.slot
    first.Perm second ∧ (first.Pairwise fun u v => u.pubkey = v.pubkey → u.slot ≠ v.slot) ∧
      slotOf first = some 10 ∧ slotOf second = some 5 ∧
      repay first = some 10000000 ∧ repay second = some 20000000 ∧
      ¬ OrderInsensitive Klend.sample first second := by
  intro first second obligation repay slotOf
  have hfirst : slotOf first = some 10 := by decide +kernel
  have hsecond : slotOf second = some 5 := by decide +kernel
  refine ⟨List.Perm.cons _ (List.Perm.swap _ _ _), by decide, hfirst, hsecond, by decide +kernel,
    by decide +kernel, fun h => ?_⟩
  have hsame : slotOf first = slotOf second :=
    congrArg (Option.map ReserveSnapshot.slot) (h.reserves (Bytes32.fill 1))
  rw [hfirst, hsecond] at hsame
  cases hsame

end KaminoAdapter

end Gyrfalcon
