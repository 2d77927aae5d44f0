import Gyrfalcon.Replay

/-!
# What a replayed detection rests on (`sim/src/replay.rs`)

An event whose raw bytes are absent, do not decode or decode to nothing falls
back to the health factor recorded with it.  To say whether the adapter was
asked at all, it is run with a log of its calls (`withLog`);
`detectsByDecoding_iff` says when a reported detection is the adapter's own.
-/

namespace Gyrfalcon

section Calls

variable {H : Type} (onAccountUpdate : H → AccountUpdate → H × Option (BreachCandidate ℚ))
  (decode : List Char → Option (List UInt8)) (event : HistoricalLiquidationEvent)

/-- One call of the adapter and its answer. -/
abbrev AdapterCall := AccountUpdate × Option (BreachCandidate ℚ)

/-- The adapter, writing down what it is asked and what it answers. -/
def withLog (health : H × List AdapterCall) (update : AccountUpdate) :
    (H × List AdapterCall) × Option (BreachCandidate ℚ) :=
  let (next, candidate) := onAccountUpdate health.1 update
  ((next, health.2 ++ [(update, candidate)]), candidate)

/-- The calls that replaying one event makes. -/
def adapterCalls (health : H) (router : FlashSourceRouter) : List AdapterCall :=
  (replayEvent (withLog onAccountUpdate) decode event (health, []) router).1.2

/-- A detected event was decoded, and the adapter found the breach in its bytes. -/
def DetectsByDecoding (health : H) (router : FlashSourceRouter) : Prop :=
  (replayEvent onAccountUpdate decode event health router).2.detected = true →
    ∃ bytes candidate, decodeBase64 decode event.obligationDataBase64 = some bytes ∧
      (event.update bytes, some candidate) ∈
        adapterCalls onAccountUpdate decode event health router

variable {decode event} (health : H) (router : FlashSourceRouter)

/-- Without raw bytes there is no call. -/
theorem adapterCalls_of_noRawBytes (h : event.NoRawBytes decode) :
    adapterCalls onAccountUpdate decode event health router = [] := by
  rw [adapterCalls, replayEvent_of_noRawBytes _ _ h]

theorem detected_of_noRawBytes (h : event.NoRawBytes decode) :
    (replayEvent onAccountUpdate decode event health router).2.detected =
      decide (event.healthFactorAtBreachSlot < 1) := by
  rw [replayEvent_of_noRawBytes _ _ h]

variable {byte : UInt8} {bytes : List UInt8}

/-- With raw bytes there is one call, on them. -/
theorem adapterCalls_of_bytes
    (h : decodeBase64 decode event.obligationDataBase64 = some (byte :: bytes)) :
    adapterCalls onAccountUpdate decode event health router =
      [(event.update (byte :: bytes),
        (onAccountUpdate health (event.update (byte :: bytes))).2)] := by
  simp only [adapterCalls, replayEvent, h, withLog, List.nil_append]

theorem detected_of_bytes
    (h : decodeBase64 decode event.obligationDataBase64 = some (byte :: bytes)) :
    (replayEvent onAccountUpdate decode event health router).2.detected =
      (onAccountUpdate health (event.update (byte :: bytes))).2.isSome := by
  simp only [replayEvent, h]

end Calls

/-- **When a detection is a decode.**  A reported detection rests on a call of the
adapter, whatever the adapter and the router, if and only if the event decodes
to some bytes or its recorded health factor shows no breach. -/
theorem detectsByDecoding_iff {H : Type}
    (onAccountUpdate : H → AccountUpdate → H × Option (BreachCandidate ℚ))
    (decode : List Char → Option (List UInt8)) (event : HistoricalLiquidationEvent) (health : H)
    (router : FlashSourceRouter) :
    DetectsByDecoding onAccountUpdate decode event health router ↔
      ¬ event.NoRawBytes decode ∨ 1 ≤ event.healthFactorAtBreachSlot := by
  by_cases hraw : event.NoRawBytes decode
  · rw [DetectsByDecoding, detected_of_noRawBytes _ _ _ hraw,
      adapterCalls_of_noRawBytes _ _ _ hraw, or_iff_right (not_not_intro hraw)]
    simp
  · refine iff_of_true ?_ (Or.inl hraw)
    simp only [HistoricalLiquidationEvent.NoRawBytes, not_forall] at hraw
    obtain ⟨bytes, hdecode, hne⟩ := hraw
    obtain ⟨byte, bytes, rfl⟩ := List.exists_cons_of_ne_nil hne
    intro hdetected
    rw [detected_of_bytes _ _ _ hdecode] at hdetected
    obtain ⟨candidate, hcandidate⟩ := Option.isSome_iff_exists.mp hdetected
    refine ⟨byte :: bytes, candidate, hdecode, ?_⟩
    rw [adapterCalls_of_bytes _ _ _ hdecode, hcandidate]
    exact List.mem_singleton_self _

/-- A fixture whose base64 is corrupted is reported as detected without a call of
the adapter, and the replay of the file succeeds. -/
theorem corrupted_fixture_detected :
    let event := { sampleEvent (Bytes32.fill 5) (Bytes32.fill 6) 1000000 with
      obligationDataBase64 := "!!!!".toList }
    let decode : List Char → Option (List UInt8) := fun _ => none
    let onAccountUpdate := KaminoAdapter.onAccountUpdate Klend.sample
    let router := (populate [event]).route
    event.obligationDataBase64 ≠ [] ∧
      (replayEvent onAccountUpdate decode event KaminoAdapter.new router).2.detected = true ∧
      adapterCalls onAccountUpdate decode event KaminoAdapter.new router = [] ∧
      ¬ DetectsByDecoding onAccountUpdate decode event KaminoAdapter.new router ∧
      replayMain Klend.sample decode (populate [event]) [event] = .success := by
  intro event decode onAccountUpdate router
  have hraw : event.NoRawBytes decode := fun _ hbytes => nomatch hbytes
  have hcalls := adapterCalls_of_noRawBytes onAccountUpdate KaminoAdapter.new router hraw
  have hdetected : (replayEvent onAccountUpdate decode event KaminoAdapter.new
      router).2.detected = true := by
    rw [detected_of_noRawBytes _ _ _ hraw]
    decide +kernel
  refine ⟨by decide, hdetected, hcalls, fun h => ?_, by decide +kernel⟩
  obtain ⟨bytes, candidate, -, hmem⟩ := h hdetected
  rw [hcalls] at hmem
  cases hmem

end Gyrfalcon
