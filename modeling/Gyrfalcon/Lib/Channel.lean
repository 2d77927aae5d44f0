import Mathlib.Data.List.Basic

/-!
# A bounded channel

A sender that does not wait and a receiver that takes the oldest message.  The
bound is part of the type: no channel holds more than its capacity.  `accepted`
is what the channel ever took, received or not; only a send can add to it.
-/

namespace Channel

variable {α : Type*} {capacity : Nat}

/-- The messages in flight, oldest first, and those already received. -/
structure Bounded (α : Type*) (capacity : Nat) where
  queue : List α
  received : List α
  length_le : queue.length ≤ capacity

namespace Bounded

def empty : Bounded α capacity := ⟨[], [], Nat.zero_le capacity⟩

/-- Send without waiting: `none` when the channel is full. -/
def trySend (channel : Bounded α capacity) (message : α) : Option (Bounded α capacity) :=
  if h : channel.queue.length < capacity then
    some ⟨channel.queue ++ [message], channel.received, by rw [List.length_append]; exact h⟩
  else none

/-- Take the oldest message, if there is one. -/
def recv : Bounded α capacity → Option (α × Bounded α capacity)
  | ⟨[], _, _⟩ => none
  | ⟨message :: queue, received, h⟩ =>
    some (message, ⟨queue, received ++ [message], Nat.le_of_succ_le h⟩)

/-- Every message the channel took. -/
def accepted (channel : Bounded α capacity) : List α := channel.received ++ channel.queue

variable {channel channel' : Bounded α capacity} {message : α}

theorem trySend_eq_none_iff : channel.trySend message = none ↔ channel.queue.length = capacity := by
  have hle := channel.length_le
  unfold trySend
  split
  · next h =>
    simp only [reduceCtorEq, false_iff]
    omega
  · next h =>
    simp only [true_iff]
    omega

theorem queue_of_trySend (h : channel.trySend message = some channel') :
    channel'.queue = channel.queue ++ [message] ∧ channel'.received = channel.received := by
  unfold trySend at h
  split at h
  · cases h
    exact ⟨rfl, rfl⟩
  · cases h

theorem accepted_of_trySend (h : channel.trySend message = some channel') :
    channel'.accepted = channel.accepted ++ [message] := by
  obtain ⟨hqueue, hreceived⟩ := queue_of_trySend h
  rw [accepted, accepted, hqueue, hreceived, List.append_assoc]

theorem queue_of_recv (h : channel.recv = some (message, channel')) :
    channel.queue = message :: channel'.queue ∧
      channel'.received = channel.received ++ [message] := by
  obtain ⟨queue, received, hlen⟩ := channel
  cases queue with
  | nil => cases h
  | cons first queue =>
    cases h
    exact ⟨rfl, rfl⟩

/-- Receiving only moves a message. -/
theorem accepted_of_recv (h : channel.recv = some (message, channel')) :
    channel'.accepted = channel.accepted := by
  obtain ⟨hqueue, hreceived⟩ := queue_of_recv h
  rw [accepted, accepted, hqueue, hreceived, List.append_assoc, List.singleton_append]

end Bounded

end Channel
