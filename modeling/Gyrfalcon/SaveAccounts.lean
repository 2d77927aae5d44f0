import Gyrfalcon.Router

/-!
# Save accounts at the router

`observe_save_account` hands every account of the Save program to
`unpack_from_slice`, which leaves the length and the initialisation to its
caller.  What arrives is either read as a reserve, rejected, or a panic, and
the section below says exactly which.
-/

namespace Gyrfalcon

open Solend
open Rounding (F64)

namespace MultiSourceRouter

/-! ## One observation -/

/-- The packed, initialized reserve that `data` is. -/
structure IsReserve (data : List UInt8) (reserve : Reserve) : Prop where
  length : data.length = reserveLen
  decodes : (Reserve.unpackFromSlice data).run = some (.ok reserve)
  initialized : reserve.isInitialized = true

/-- The observation returns, leaves the tracked reserves alone unless the data
is a reserve, and stores that reserve if it is one. -/
def ObservesSafely (f64 : F64) (self : MultiSourceRouter) (pubkey : Pubkey)
    (data : List UInt8) : Prop :=
  ∃ router, self.observeSaveAccount f64 Reserve.unpackFromSlice pubkey data = some router ∧
    ((∃ key, router.reserves.lookup key ≠ self.reserves.lookup key) →
      ∃ reserve, IsReserve data reserve) ∧
    ∀ reserve, IsReserve data reserve →
      router.reserves = self.reserves.insert pubkey (saveReserveInfo f64 reserve)

variable {f64 : F64} {self : MultiSourceRouter} {pubkey : Pubkey} {data : List UInt8}

theorem observeSaveAccount_panics (h : (Reserve.unpackFromSlice data).run = none) :
    self.observeSaveAccount f64 Reserve.unpackFromSlice pubkey data = none := by
  rw [observeSaveAccount, h]

theorem observeSaveAccount_err {e : ProgramError}
    (h : (Reserve.unpackFromSlice data).run = some (.error e)) :
    self.observeSaveAccount f64 Reserve.unpackFromSlice pubkey data = some self := by
  rw [observeSaveAccount, h]

theorem observeSaveAccount_ok {reserve : Reserve}
    (h : (Reserve.unpackFromSlice data).run = some (.ok reserve)) :
    self.observeSaveAccount f64 Reserve.unpackFromSlice pubkey data =
      some { self with reserves := self.reserves.insert pubkey (saveReserveInfo f64 reserve) } := by
  rw [observeSaveAccount, h]

theorem not_observesSafely_of_panic (h : (Reserve.unpackFromSlice data).run = none) :
    ¬ self.ObservesSafely f64 pubkey data := by
  rintro ⟨router, hrouter, -⟩
  rw [observeSaveAccount_panics h] at hrouter
  cases hrouter

/-- What decodes is stored; that is safe for a reserve, and where the router
already tracks just that. -/
theorem observesSafely_of_ok {reserve : Reserve}
    (h : (Reserve.unpackFromSlice data).run = some (.ok reserve)) :
    self.ObservesSafely f64 pubkey data ↔
      data.length = reserveLen ∧ reserve.version ≠ uninitializedVersion ∨
        self.reserves.lookup pubkey = some (saveReserveInfo f64 reserve) := by
  have hunique : ∀ reserve', IsReserve data reserve' → reserve' = reserve := by
    intro reserve' hreserve
    simpa using hreserve.decodes.symm.trans h
  constructor
  · rintro ⟨router, hrouter, hchanged, -⟩
    obtain rfl := Option.some.inj ((observeSaveAccount_ok h).symm.trans hrouter)
    by_cases hsame : self.reserves.lookup pubkey = some (saveReserveInfo f64 reserve)
    · exact Or.inr hsame
    · obtain ⟨reserve', hreserve⟩ := hchanged ⟨pubkey, by simpa using Ne.symm hsame⟩
      obtain rfl := hunique reserve' hreserve
      exact Or.inl ⟨hreserve.length, by simpa [Reserve.isInitialized] using hreserve.initialized⟩
  · intro hcond
    refine ⟨_, observeSaveAccount_ok h, ?_, ?_⟩
    · rintro ⟨key, hkey⟩
      rcases hcond with ⟨hlen, hversion⟩ | hsame
      · exact ⟨reserve, hlen, h, by simpa [Reserve.isInitialized] using hversion⟩
      · refine absurd ?_ hkey
        by_cases hk : key = pubkey
        · subst hk
          rw [hsame]
          exact AList.lookup_insert _
        · exact AList.lookup_insert_ne hk
    · intro reserve' hreserve
      rw [hunique reserve' hreserve]

/-- A decoding error leaves the router alone. -/
theorem observesSafely_of_err {e : ProgramError}
    (h : (Reserve.unpackFromSlice data).run = some (.error e)) :
    self.ObservesSafely f64 pubkey data := by
  refine ⟨self, observeSaveAccount_err h, ?_, ?_⟩
  · rintro ⟨key, hkey⟩
    exact absurd rfl hkey
  · intro reserve hreserve
    cases hreserve.decodes.symm.trans h

/-- Data that decodes, in terms of its bytes. -/
theorem observesSafely_of_checked (hlen : reserveLen ≤ data.length) (hchecked : Checked data)
    (htype : byteAt data 469 ≤ 1) :
    self.ObservesSafely f64 pubkey data ↔
      data.length = reserveLen ∧ byteAt data 0 = 1 ∨
        ∃ reserve, (Reserve.unpackFromSlice data).run = some (.ok reserve) ∧
          self.reserves.lookup pubkey = some (saveReserveInfo f64 reserve) := by
  obtain ⟨reserve, hok, hversion⟩ := unpackFromSlice_ok hlen hchecked htype
  have hone : reserve.version ≠ uninitializedVersion ↔ byteAt data 0 = 1 := by
    rw [hversion]
    rcases eq_zero_or_one hchecked.version with h | h
    · rw [h]
      decide
    · rw [h]
      decide
  have htracked : (∃ reserve, (Reserve.unpackFromSlice data).run = some (.ok reserve) ∧
      self.reserves.lookup pubkey = some (saveReserveInfo f64 reserve)) ↔
        self.reserves.lookup pubkey = some (saveReserveInfo f64 reserve) := by
    simp [hok]
  rw [observesSafely_of_ok hok, hone, htracked]

/-- **When an observation is safe.**  The data is at least as long as a reserve,
and if its version and flags pass, then so does its asset type, and it is a
reserve of the exact length that is initialized, or one tracked already. -/
theorem observesSafely_iff (f64 : F64) (self : MultiSourceRouter) (pubkey : Pubkey)
    (data : List UInt8) :
    self.ObservesSafely f64 pubkey data ↔
      reserveLen ≤ data.length ∧
        (byteAt data 0 ≤ 1 → byteAt data 9 ≤ 1 → byteAt data 521 ≤ 1 →
          byteAt data 469 ≤ 1 ∧
            (data.length = reserveLen ∧ byteAt data 0 = 1 ∨
              ∃ reserve, (Reserve.unpackFromSlice data).run = some (.ok reserve) ∧
                self.reserves.lookup pubkey = some (saveReserveInfo f64 reserve))) := by
  by_cases hlen : reserveLen ≤ data.length
  · by_cases hchecked : Checked data
    · have hflags := hchecked.extraMarketPriceFlag
      by_cases htype : byteAt data 469 ≤ 1
      · rw [observesSafely_of_checked hlen hchecked htype]
        constructor
        · intro h
          exact ⟨hlen, fun _ _ _ => ⟨htype, h⟩⟩
        · rintro ⟨-, h⟩
          exact (h hchecked.version hchecked.stale hflags).2
      · have hpanic := unpackFromSlice_assetType hlen hchecked htype
        constructor
        · intro h
          exact absurd h (not_observesSafely_of_panic hpanic)
        · rintro ⟨-, h⟩
          exact absurd (h hchecked.version hchecked.stale hflags).1 htype
    · have herr := unpackFromSlice_err hlen hchecked
      constructor
      · intro _
        exact ⟨hlen, fun h0 h9 h521 => absurd ⟨h0, h9, h521⟩ hchecked⟩
      · intro _
        exact observesSafely_of_err herr
  · have hpanic := unpackFromSlice_short (Nat.lt_of_not_le hlen)
    constructor
    · intro h
      exact absurd h (not_observesSafely_of_panic hpanic)
    · rintro ⟨h, -⟩
      exact absurd h hlen

/-- A lending market of 290 bytes panics, and an obligation of 1300 bytes is
tracked as a reserve whose mint is the obligation's owner. -/
theorem observes_unsafely :
    let lendingMarket : List UInt8 := 1 :: List.replicate 289 0
    let obligation : List UInt8 :=
      1 :: (List.replicate 41 0 ++ List.replicate 32 7 ++ List.replicate 1226 0)
    lendingMarket.length = 290 ∧
      new.observeSaveAccount .ieee Reserve.unpackFromSlice (Bytes32.fill 3) lendingMarket = none ∧
      obligation.length = 1300 ∧
      (new.observeSaveAccount .ieee Reserve.unpackFromSlice (Bytes32.fill 3) obligation).bind
          (fun router => router.reserves.lookup (Bytes32.fill 3)) =
        some ⟨.solend, Bytes32.fill 7, 0, some 0⟩ := by
  refine ⟨?_, ?_, ?_, ?_⟩
  · decide +kernel
  · exact observeSaveAccount_panics (unpackFromSlice_short (by decide +kernel))
  · decide +kernel
  · decide +kernel

end MultiSourceRouter

end Gyrfalcon
