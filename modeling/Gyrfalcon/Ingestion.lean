import Gyrfalcon.Core
import Gyrfalcon.Lib.Channel
import Gyrfalcon.Lib.Machine
import Mathlib.Data.Finset.Insert

/-!
# Ingestion

The drain of an account source into the ring buffer, with the health engines
popping from the other end.  The ring is the only thing the two sides share, and
an iteration of the drain touches it once, in `push`: an interleaving of the two
is a list of whole iterations and pops.  `Conserved` says where every account
the drain has taken is now.
-/

namespace Gyrfalcon

/-! ## Owner filter (`ingestion/src/decode.rs`) -/

/-- One account as it arrived off the wire, undecoded. -/
structure RawAccount where
  pubkey : Pubkey
  owner : Pubkey
  data : List UInt8
  slot : Nat
  deriving DecidableEq, Repr

structure DecoderRegistry where
  owners : Finset Pubkey

namespace DecoderRegistry

def new : DecoderRegistry := ⟨∅⟩

def watch (self : DecoderRegistry) (owner : Pubkey) : DecoderRegistry :=
  ⟨insert owner self.owners⟩

def isWatched (self : DecoderRegistry) (owner : Pubkey) : Bool := decide (owner ∈ self.owners)

end DecoderRegistry

/-! ## Ring buffer (`ingestion/src/ring_buffer.rs`) -/

/-- The `ArrayQueue` behind `RingBuffer`: a bounded queue, first in first out. -/
abbrev RingBuffer (capacity : Nat) := Channel.Bounded AccountUpdate capacity

inductive PushError where
  | full
  deriving DecidableEq, Repr

namespace RingBuffer

variable {capacity : Nat}

def push (ring : RingBuffer capacity) (update : AccountUpdate) :
    Except PushError (RingBuffer capacity) :=
  match ring.trySend update with
  | some ring => .ok ring
  | none => .error .full

def pop (ring : RingBuffer capacity) : Option (AccountUpdate × RingBuffer capacity) := ring.recv

def len (ring : RingBuffer capacity) : Nat := ring.queue.length

variable {ring ring' : RingBuffer capacity} {update : AccountUpdate}

theorem queue_of_push (h : ring.push update = .ok ring') :
    ring'.queue = ring.queue ++ [update] := by
  unfold push at h
  cases hsend : ring.trySend update with
  | none => rw [hsend] at h; cases h
  | some sent =>
    rw [hsend] at h
    cases h
    exact (Channel.Bounded.queue_of_trySend hsend).1

theorem len_of_push {error : PushError} (h : ring.push update = .error error) :
    ring.len = capacity := by
  unfold push at h
  cases hsend : ring.trySend update with
  | none => exact Channel.Bounded.trySend_eq_none_iff.mp hsend
  | some sent => rw [hsend] at h; cases h

theorem queue_of_pop (h : ring.pop = some (update, ring')) :
    ring.queue = update :: ring'.queue :=
  (Channel.Bounded.queue_of_recv h).1

theorem queue_of_pop_none (h : ring.pop = none) : ring.queue = [] := by
  obtain ⟨queue, received, hlen⟩ := ring
  cases queue with
  | nil => rfl
  | cons first queue => cases h

end RingBuffer

/-! ## Drain (`ingestion/src/pipeline.rs`) -/

/-- The counters are `usize` in the source; each iteration adds one to one of them. -/
structure DrainStats where
  forwarded : Nat
  unwatched : Nat
  bufferFull : Nat
  deriving DecidableEq, Repr

/-- The `AccountUpdate` that an account is forwarded as. -/
def RawAccount.update (raw : RawAccount) : AccountUpdate :=
  ⟨raw.pubkey, raw.owner, raw.data, raw.slot⟩

/-- What the drain and the consumer see: the rest of the source, the ring, the
counters. -/
structure Ingestion (capacity : Nat) where
  source : List RawAccount
  ring : RingBuffer capacity
  stats : DrainStats

/-- Who moves next. -/
inductive Turn where
  | drain
  | pop
  deriving DecidableEq, Repr

/-- What a move did. -/
inductive IngestionEvent where
  | forwarded (raw : RawAccount)
  | unwatched (raw : RawAccount)
  | bufferFull (raw : RawAccount)
  | exhausted
  | popped (update : AccountUpdate)
  | empty
  deriving DecidableEq, Repr

namespace Ingestion

variable {capacity : Nat} (registry : DecoderRegistry)

/-- The state in which `drain_into_ring_buffer` is called. -/
def start (source : List RawAccount) (ring : RingBuffer capacity) : Ingestion capacity :=
  ⟨source, ring, ⟨0, 0, 0⟩⟩

/-- One iteration of the loop of `drain_into_ring_buffer`. -/
def drainIntoRingBuffer (s : Ingestion capacity) : Ingestion capacity × IngestionEvent :=
  match s.source with
  | [] => (s, .exhausted)
  | raw :: source =>
    if !registry.isWatched raw.owner then
      ({ s with source, stats := { s.stats with unwatched := s.stats.unwatched + 1 } },
        .unwatched raw)
    else
      match s.ring.push raw.update with
      | .ok ring =>
        (⟨source, ring, { s.stats with forwarded := s.stats.forwarded + 1 }⟩, .forwarded raw)
      | .error .full =>
        ({ s with source, stats := { s.stats with bufferFull := s.stats.bufferFull + 1 } },
          .bufferFull raw)

def consume (s : Ingestion capacity) : Ingestion capacity × IngestionEvent :=
  match s.ring.pop with
  | some (update, ring) => ({ s with ring }, .popped update)
  | none => (s, .empty)

/-- One move of either side. -/
def step (s : Ingestion capacity) : Turn → Ingestion capacity × IngestionEvent
  | .drain => drainIntoRingBuffer registry s
  | .pop => consume s

/-- Everything an iteration can do. -/
theorem drainIntoRingBuffer_cases (s : Ingestion capacity) :
    (s.source = [] ∧ drainIntoRingBuffer registry s = (s, .exhausted)) ∨
    ∃ raw source, s.source = raw :: source ∧
      ((registry.isWatched raw.owner = false ∧
          drainIntoRingBuffer registry s =
            (⟨source, s.ring, { s.stats with unwatched := s.stats.unwatched + 1 }⟩,
              .unwatched raw)) ∨
        (registry.isWatched raw.owner = true ∧ ∃ ring,
          ring.queue = s.ring.queue ++ [raw.update] ∧
          drainIntoRingBuffer registry s =
            (⟨source, ring, { s.stats with forwarded := s.stats.forwarded + 1 }⟩,
              .forwarded raw)) ∨
        (registry.isWatched raw.owner = true ∧ s.ring.len = capacity ∧
          drainIntoRingBuffer registry s =
            (⟨source, s.ring, { s.stats with bufferFull := s.stats.bufferFull + 1 }⟩,
              .bufferFull raw))) := by
  cases hsource : s.source with
  | nil =>
    refine .inl ⟨rfl, ?_⟩
    simp only [drainIntoRingBuffer, hsource]
  | cons raw source =>
    refine .inr ⟨raw, source, rfl, ?_⟩
    cases hwatched : registry.isWatched raw.owner with
    | false =>
      refine .inl ⟨rfl, ?_⟩
      simp [drainIntoRingBuffer, hsource, hwatched]
    | true =>
      cases hpush : s.ring.push raw.update with
      | ok ring =>
        refine .inr (.inl ⟨rfl, ring, RingBuffer.queue_of_push hpush, ?_⟩)
        simp [drainIntoRingBuffer, hsource, hwatched, hpush]
      | error error =>
        refine .inr (.inr ⟨rfl, RingBuffer.len_of_push hpush, ?_⟩)
        cases error
        simp [drainIntoRingBuffer, hsource, hwatched, hpush]

theorem consume_cases (s : Ingestion capacity) :
    (s.ring.queue = [] ∧ consume s = (s, .empty)) ∨
    ∃ update ring, s.ring.queue = update :: ring.queue ∧
      consume s = ({ s with ring }, .popped update) := by
  unfold consume
  cases hpop : s.ring.pop with
  | none => exact .inl ⟨RingBuffer.queue_of_pop_none hpop, rfl⟩
  | some popped => exact .inr ⟨popped.1, popped.2, RingBuffer.queue_of_pop hpop, rfl⟩

end Ingestion

/-! ## Conservation -/

/-- What happened to the accounts the drain took, each list in order, and what
the consumer got. -/
structure Ledger where
  taken : List RawAccount
  accepted : List RawAccount
  ignored : List RawAccount
  rejected : List RawAccount
  delivered : List AccountUpdate

namespace Ledger

def book (ledger : Ledger) : IngestionEvent → Ledger
  | .forwarded raw =>
    { ledger with taken := ledger.taken ++ [raw], accepted := ledger.accepted ++ [raw] }
  | .unwatched raw =>
    { ledger with taken := ledger.taken ++ [raw], ignored := ledger.ignored ++ [raw] }
  | .bufferFull raw =>
    { ledger with taken := ledger.taken ++ [raw], rejected := ledger.rejected ++ [raw] }
  | .popped update => { ledger with delivered := ledger.delivered ++ [update] }
  | .exhausted | .empty => ledger

def ofEvents (events : List IngestionEvent) : Ledger := events.foldl book ⟨[], [], [], [], []⟩

theorem ofEvents_concat (events : List IngestionEvent) (event : IngestionEvent) :
    ofEvents (events ++ [event]) = (ofEvents events).book event := by
  rw [ofEvents, List.foldl_append]
  rfl

end Ledger

namespace Ingestion

variable {capacity : Nat} (registry : DecoderRegistry)

/-- Where every account is, from the call with `source` and `ring` on: the ring
read from the consumer's end is what was there and what was accepted, and each
counter is the length of its list. -/
structure Conserved (source : List RawAccount) (ring : RingBuffer capacity) (ledger : Ledger)
    (s : Ingestion capacity) : Prop where
  fifo : ledger.delivered ++ s.ring.queue = ring.queue ++ ledger.accepted.map RawAccount.update
  taken : ledger.taken ++ s.source = source
  sourceOrder : ledger.accepted.Sublist ledger.taken
  watched : ∀ raw ∈ ledger.accepted, registry.isWatched raw.owner = true
  ignored : ledger.ignored = ledger.taken.filter fun raw => !registry.isWatched raw.owner
  forwarded : s.stats.forwarded = ledger.accepted.length
  unwatched : s.stats.unwatched = ledger.ignored.length
  bufferFull : s.stats.bufferFull = ledger.rejected.length
  total : s.stats.forwarded + s.stats.unwatched + s.stats.bufferFull = ledger.taken.length

namespace Conserved

variable {registry} {source rest : List RawAccount} {ring current next : RingBuffer capacity}
  {stats : DrainStats} {ledger : Ledger} {raw : RawAccount}

theorem start (source : List RawAccount) (ring : RingBuffer capacity) :
    Conserved registry source ring (Ledger.ofEvents []) (Ingestion.start source ring) where
  fifo := (List.append_nil ring.queue).symm
  taken := rfl
  sourceOrder := List.Sublist.slnil
  watched := fun _ hraw => nomatch hraw
  ignored := rfl
  forwarded := rfl
  unwatched := rfl
  bufferFull := rfl
  total := rfl

theorem book_forwarded (h : Conserved registry source ring ledger ⟨raw :: rest, current, stats⟩)
    (howner : registry.isWatched raw.owner = true)
    (hqueue : next.queue = current.queue ++ [raw.update]) :
    Conserved registry source ring (ledger.book (.forwarded raw))
      ⟨rest, next, { stats with forwarded := stats.forwarded + 1 }⟩ where
  fifo := by
    show ledger.delivered ++ next.queue = ring.queue ++ (ledger.accepted ++ [raw]).map _
    rw [hqueue, List.map_append, ← List.append_assoc, ← List.append_assoc, h.fifo]
    rfl
  taken := (List.append_cons _ _ _).symm.trans h.taken
  sourceOrder := h.sourceOrder.append_right [raw]
  watched := by
    intro other hother
    rcases List.mem_append.mp hother with hother | hother
    · exact h.watched other hother
    · rw [List.mem_singleton.mp hother]
      exact howner
  ignored := by
    show ledger.ignored = (ledger.taken ++ [raw]).filter _
    rw [List.filter_append, ← h.ignored]
    simp [howner]
  forwarded := by
    show stats.forwarded + 1 = (ledger.accepted ++ [raw]).length
    rw [List.length_append, ← h.forwarded]
    rfl
  unwatched := h.unwatched
  bufferFull := h.bufferFull
  total := by
    show stats.forwarded + 1 + stats.unwatched + stats.bufferFull = (ledger.taken ++ [raw]).length
    have htotal : stats.forwarded + stats.unwatched + stats.bufferFull = _ := h.total
    rw [List.length_append, List.length_singleton]
    omega

theorem book_unwatched (h : Conserved registry source ring ledger ⟨raw :: rest, current, stats⟩)
    (howner : registry.isWatched raw.owner = false) :
    Conserved registry source ring (ledger.book (.unwatched raw))
      ⟨rest, current, { stats with unwatched := stats.unwatched + 1 }⟩ where
  fifo := h.fifo
  taken := (List.append_cons _ _ _).symm.trans h.taken
  sourceOrder := h.sourceOrder.trans (List.sublist_append_left ledger.taken [raw])
  watched := h.watched
  ignored := by
    show ledger.ignored ++ [raw] = (ledger.taken ++ [raw]).filter _
    rw [List.filter_append, ← h.ignored]
    simp [howner]
  forwarded := h.forwarded
  unwatched := by
    show stats.unwatched + 1 = (ledger.ignored ++ [raw]).length
    rw [List.length_append, ← h.unwatched]
    rfl
  bufferFull := h.bufferFull
  total := by
    show stats.forwarded + (stats.unwatched + 1) + stats.bufferFull = (ledger.taken ++ [raw]).length
    have htotal : stats.forwarded + stats.unwatched + stats.bufferFull = _ := h.total
    rw [List.length_append, List.length_singleton]
    omega

theorem book_bufferFull (h : Conserved registry source ring ledger ⟨raw :: rest, current, stats⟩)
    (howner : registry.isWatched raw.owner = true) :
    Conserved registry source ring (ledger.book (.bufferFull raw))
      ⟨rest, current, { stats with bufferFull := stats.bufferFull + 1 }⟩ where
  fifo := h.fifo
  taken := (List.append_cons _ _ _).symm.trans h.taken
  sourceOrder := h.sourceOrder.trans (List.sublist_append_left ledger.taken [raw])
  watched := h.watched
  ignored := by
    show ledger.ignored = (ledger.taken ++ [raw]).filter _
    rw [List.filter_append, ← h.ignored]
    simp [howner]
  forwarded := h.forwarded
  unwatched := h.unwatched
  bufferFull := by
    show stats.bufferFull + 1 = (ledger.rejected ++ [raw]).length
    rw [List.length_append, ← h.bufferFull]
    rfl
  total := by
    show stats.forwarded + stats.unwatched + (stats.bufferFull + 1) = (ledger.taken ++ [raw]).length
    have htotal : stats.forwarded + stats.unwatched + stats.bufferFull = _ := h.total
    rw [List.length_append, List.length_singleton]
    omega

theorem book_popped {update : AccountUpdate}
    (h : Conserved registry source ring ledger ⟨rest, current, stats⟩)
    (hqueue : current.queue = update :: next.queue) :
    Conserved registry source ring (ledger.book (.popped update)) ⟨rest, next, stats⟩ :=
  { h with
    fifo := by
      show (ledger.delivered ++ [update]) ++ next.queue = _
      rw [← List.append_cons, ← hqueue]
      exact h.fifo }

/-- Either side's move keeps the books. -/
theorem step {s : Ingestion capacity} (h : Conserved registry source ring ledger s) (turn : Turn) :
    Conserved registry source ring (ledger.book (Ingestion.step registry s turn).2)
      (Ingestion.step registry s turn).1 := by
  obtain ⟨remaining, current, stats⟩ := s
  cases turn with
  | drain =>
    show Conserved registry source ring (ledger.book (drainIntoRingBuffer registry _).2)
      (drainIntoRingBuffer registry _).1
    obtain ⟨-, hstep⟩ | ⟨raw, rest, rfl, hcase⟩ :=
      drainIntoRingBuffer_cases registry ⟨remaining, current, stats⟩
    · rw [hstep]
      exact h
    obtain ⟨howner, hstep⟩ | ⟨howner, next, hqueue, hstep⟩ | ⟨howner, -, hstep⟩ := hcase
    · rw [hstep]
      exact h.book_unwatched howner
    · rw [hstep]
      exact h.book_forwarded howner hqueue
    · rw [hstep]
      exact h.book_bufferFull howner
  | pop =>
    show Conserved registry source ring (ledger.book (consume _).2) (consume _).1
    obtain ⟨-, hstep⟩ | ⟨update, next, hqueue, hstep⟩ :=
      consume_cases ⟨remaining, current, stats⟩
    · rw [hstep]
      exact h
    · rw [hstep]
      exact h.book_popped hqueue

/-- The books hold after every interleaving. -/
theorem run (source : List RawAccount) (ring : RingBuffer capacity) (turns : List Turn) :
    Conserved registry source ring
      (Ledger.ofEvents
        (Machine.outputs (Ingestion.step registry) (Ingestion.start source ring) turns))
      (Machine.final (Ingestion.step registry) (Ingestion.start source ring) turns) := by
  have hstep : ∀ events s turn, Conserved registry source ring (Ledger.ofEvents events) s →
      Conserved registry source ring
        (Ledger.ofEvents (events ++ [(Ingestion.step registry s turn).2]))
        (Ingestion.step registry s turn).1 := by
    intro events s turn h
    rw [Ledger.ofEvents_concat]
    exact h.step turn
  exact Machine.history_invariant hstep (Conserved.start source ring) turns

end Conserved

/-- The drain takes one account a turn, whatever the consumer does. -/
theorem source_step (s : Ingestion capacity) (turn : Turn) :
    (step registry s turn).1.source = s.source.drop ([turn].count .drain) := by
  cases turn with
  | drain =>
    show (drainIntoRingBuffer registry s).1.source = s.source.drop 1
    obtain ⟨hsource, hstep⟩ | ⟨raw, rest, hsource, hcase⟩ := drainIntoRingBuffer_cases registry s
    · rw [hstep, hsource]
      rfl
    · rw [hsource]
      obtain ⟨-, hstep⟩ | ⟨-, ring, -, hstep⟩ | ⟨-, -, hstep⟩ := hcase
      · rw [hstep]
        rfl
      · rw [hstep]
        rfl
      · rw [hstep]
        rfl
  | pop =>
    show (consume s).1.source = s.source
    obtain ⟨-, hstep⟩ | ⟨update, ring, -, hstep⟩ := consume_cases s
    · rw [hstep]
    · rw [hstep]

theorem source_final (s : Ingestion capacity) (turns : List Turn) :
    (Machine.final (step registry) s turns).source = s.source.drop (turns.count .drain) := by
  induction turns generalizing s with
  | nil => rfl
  | cons turn turns ih =>
    rw [Machine.final_cons, ih, source_step, List.drop_drop, ← List.count_append]
    rfl

/-- What a turn of the drain does with a watched account that it does not forward. -/
theorem bufferFull_of_step {s : Ingestion capacity} {raw : RawAccount} {rest : List RawAccount}
    (hsource : s.source = raw :: rest) (howner : registry.isWatched raw.owner = true)
    (hdropped : (step registry s .drain).2 ≠ .forwarded raw) :
    (step registry s .drain).2 = .bufferFull raw ∧ s.ring.len = capacity := by
  change (drainIntoRingBuffer registry s).2 ≠ _ at hdropped
  show (drainIntoRingBuffer registry s).2 = _ ∧ _
  obtain ⟨hempty, -⟩ | ⟨raw', rest', hsource', hcase⟩ := drainIntoRingBuffer_cases registry s
  · rw [hempty] at hsource
    cases hsource
  rw [hsource'] at hsource
  cases hsource
  obtain ⟨hunwatched, -⟩ | ⟨-, ring, -, hstep⟩ | ⟨-, hlen, hstep⟩ := hcase
  · rw [howner] at hunwatched
    cases hunwatched
  · rw [hstep] at hdropped
    exact absurd rfl hdropped
  · rw [hstep]
    exact ⟨rfl, hlen⟩

/-- **Ingestion loses nothing silently.**  For every source, watched set, ring
and interleaving, the books of `Conserved` hold; a watched account that is not
forwarded met a full ring; and once the drain had a turn for every account, all
of them were taken and the counters add up to their number. -/
theorem ingestion_loses_nothing (registry : DecoderRegistry) (source : List RawAccount)
    (ring : RingBuffer capacity) (turns : List Turn) :
    let last := Machine.final (step registry) (start source ring) turns
    let ledger := Ledger.ofEvents (Machine.outputs (step registry) (start source ring) turns)
    Conserved registry source ring ledger last ∧
      (∀ t ∈ Machine.steps (step registry) (start source ring) turns, ∀ raw rest,
        t.input = .drain → t.pre.source = raw :: rest → registry.isWatched raw.owner = true →
          t.output ≠ .forwarded raw → t.output = .bufferFull raw ∧ t.pre.ring.len = capacity) ∧
      (source.length ≤ turns.count .drain →
        last.source = [] ∧ ledger.taken = source ∧
          last.stats.forwarded + last.stats.unwatched + last.stats.bufferFull = source.length) := by
  intro last ledger
  have hbooks : Conserved registry source ring ledger last := Conserved.run source ring turns
  refine ⟨hbooks, ?_, ?_⟩
  · rintro t ht raw rest hinput hsource howner hdropped
    obtain ⟨-, -, -, -, hstep⟩ := (Machine.mem_steps_iff _ _ _ _).mp ht
    rw [hinput] at hstep
    have houtput : (step registry t.pre .drain).2 = t.output := by rw [hstep]
    rw [← houtput] at hdropped ⊢
    exact bufferFull_of_step registry hsource howner hdropped
  · intro hturns
    have hsource : last.source = [] := by
      rw [source_final]
      exact List.drop_of_length_le hturns
    have htaken : ledger.taken = source := by
      rw [← hbooks.taken, hsource, List.append_nil]
    refine ⟨hsource, htaken, ?_⟩
    rw [hbooks.total, htaken]

/-- A ring of two with one update in it: of three watched accounts the second
meets a full ring, the third comes after a pop. -/
theorem ingestion_loses_nothing_pops :
    let owner := Bytes32.fill 9
    let account (owner : Pubkey) (slot : Nat) : RawAccount := ⟨Bytes32.fill 1, owner, [7], slot⟩
    let registry := DecoderRegistry.new.watch owner
    let source := [account owner 1, account (Bytes32.fill 8) 2, account owner 3, account owner 4]
    let ring : RingBuffer 2 := ⟨[(account owner 0).update], [], by decide⟩
    let turns := [.drain, .drain, .drain, .pop, .drain]
    let last := Machine.final (step registry) (start source ring) turns
    last.stats = ⟨2, 1, 1⟩ ∧ source.length ≤ turns.count .drain ∧
      last.stats.forwarded + last.stats.unwatched + last.stats.bufferFull = source.length := by
  intro owner account registry source ring turns
  have hturns : source.length ≤ turns.count .drain := by decide
  obtain ⟨-, -, hdrained⟩ := ingestion_loses_nothing registry source ring turns
  obtain ⟨-, -, htotal⟩ := hdrained hturns
  exact ⟨by decide +kernel, hturns, htotal⟩

end Ingestion

end Gyrfalcon
