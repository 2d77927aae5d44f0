import Gyrfalcon.LiquidationLog
import Gyrfalcon.Lib.KeyedMap
import Gyrfalcon.Lib.Machine
import Mathlib.Data.Multiset.Defs

/-!
# Position book (`store/src/position_book.rs`)

The latest known state of each position, written to disk now and then.  A
snapshot holds the records without their keys, in the arbitrary order in which
the map enumerates them; restoring upserts them one by one.
`restore_snapshot` says that nothing is lost by it.
-/

namespace Gyrfalcon

open TextLines KeyedMap

structure PositionRecord (F : Type) where
  protocol : Protocol
  positionId : Pubkey
  collateralMint : Pubkey
  debtMint : Pubkey
  healthFactor : F
  lastUpdatedSlot : Nat
  deriving DecidableEq, Repr

structure PositionBook (F : Type) where
  positions : LastWrite.HashMap Pubkey (PositionRecord F)

/-- `serde_json`, at lists of records. -/
structure SnapshotJson (F : Type) where
  toStringPretty : List (PositionRecord F) → Except String (List Char)
  fromStr : List Char → Except String (List (PositionRecord F))

/-- The list is written, and read back as it was. -/
def SnapshotJson.RoundTrips {F : Type} (serde : SnapshotJson F)
    (records : List (PositionRecord F)) : Prop :=
  ∃ json, serde.toStringPretty records = .ok json ∧ serde.fromStr json = .ok records

namespace PositionBook

variable {F : Type}

/-! ## Operations -/

def new : PositionBook F := ⟨∅⟩

def upsert (self : PositionBook F) (record : PositionRecord F) : PositionBook F :=
  ⟨self.positions.insert record.positionId record⟩

def get (self : PositionBook F) (positionId : Pubkey) : Option (PositionRecord F) :=
  self.positions.lookup positionId

def remove (self : PositionBook F) (positionId : Pubkey) :
    PositionBook F × Option (PositionRecord F) :=
  (⟨self.positions.erase positionId⟩, self.positions.lookup positionId)

def len (self : PositionBook F) : Nat := self.positions.entries.length

def isEmpty (self : PositionBook F) : Bool := self.len == 0

/-- An order in which the records may be enumerated. -/
structure Enumeration (book : PositionBook F) where
  records : List (PositionRecord F)
  perm : records.Perm (values book.positions)

/-- What is written to `path`, `write` being how that ends. -/
def snapshot (self : PositionBook F) (serde : SnapshotJson F) (order : self.Enumeration)
    (path : String) (write : Except String Unit) : Except StoreError (List UInt8) := do
  let json ← (serde.toStringPretty order.records).mapError .serde
  write.mapError (.io path)
  return utf8 json

/-- `contents` is what reading `path` gives. -/
def restore (serde : SnapshotJson F) (path : String) (contents : Except String (List UInt8)) :
    Except StoreError (PositionBook F) := do
  let bytes ← contents.mapError (.io path)
  match decodeUtf8 bytes with
  | none => throw (.io path "stream did not contain valid UTF-8")
  | some json =>
    let records ← (serde.fromStr json).mapError .serde
    return records.foldl upsert new

/-! ## Runs -/

inductive Op (F : Type) where
  | upsert (record : PositionRecord F)
  | remove (positionId : Pubkey)
  | get (positionId : Pubkey)
  | len
  | isEmpty
  | iter
  deriving DecidableEq, Repr

/-- What a call returns.  `iter` gives the records in no particular order. -/
inductive Reply (F : Type) where
  | done
  | record (found : Option (PositionRecord F))
  | count (n : Nat)
  | empty (isEmpty : Bool)
  | records (all : Multiset (PositionRecord F))

def step (self : PositionBook F) : Op F → PositionBook F × Reply F
  | .upsert record => (self.upsert record, .done)
  | .remove positionId => ((self.remove positionId).1, .record (self.remove positionId).2)
  | .get positionId => (self, .record (self.get positionId))
  | .len => (self, .count self.len)
  | .isEmpty => (self, .empty self.isEmpty)
  | .iter => (self, .records ↑(values self.positions))

/-- The book after `ops`, from an empty one. -/
def after (ops : List (Op F)) : PositionBook F := Machine.final step new ops

/-- Every record of a book in use is filed under its own position. -/
theorem keyed_after (ops : List (Op F)) :
    Keyed PositionRecord.positionId (after ops).positions := by
  refine @Machine.final_invariant _ _ _ step new
    (fun book => Keyed PositionRecord.positionId book.positions) ?_ keyed_empty ops
  intro book op h
  cases op with
  | upsert record => exact h.insert record
  | remove positionId => exact h.erase positionId
  | _ => exact h

/-- The same entries, possibly in another order. -/
def Same (a b : PositionBook F) : Prop := a.positions.entries.Perm b.positions.entries

theorem Same.get {a b : PositionBook F} (h : Same a b) (positionId : Pubkey) :
    a.get positionId = b.get positionId :=
  AList.perm_lookup h

theorem Same.len {a b : PositionBook F} (h : Same a b) : a.len = b.len := List.Perm.length_eq h

/-- One operation keeps the entries the same and answers the same. -/
theorem Same.step {a b : PositionBook F} (h : Same a b) (op : Op F) :
    Same (a.step op).1 (b.step op).1 ∧ (a.step op).2 = (b.step op).2 := by
  cases op with
  | upsert record => exact ⟨AList.perm_insert h, rfl⟩
  | remove positionId =>
    exact ⟨AList.perm_erase h, congrArg Reply.record (AList.perm_lookup h)⟩
  | get positionId => exact ⟨h, congrArg Reply.record (h.get positionId)⟩
  | len => exact ⟨h, congrArg Reply.count h.len⟩
  | isEmpty =>
    refine ⟨h, congrArg Reply.empty ?_⟩
    rw [PositionBook.isEmpty, PositionBook.isEmpty, h.len]
  | iter => exact ⟨h, congrArg Reply.records (Multiset.coe_eq_coe.mpr (List.Perm.map _ h))⟩

/-! ## Restoring a snapshot -/

theorem positions_foldl_upsert (records : List (PositionRecord F)) (book : PositionBook F) :
    (records.foldl upsert book).positions =
      records.foldl (fun m record => m.insert record.positionId record) book.positions := by
  induction records generalizing book with
  | nil => rfl
  | cons record records ih => rw [List.foldl_cons, ih, List.foldl_cons]; rfl

/-- Records of a book in use, upserted in any order, give the same book. -/
theorem same_foldl_upsert (ops : List (Op F)) (order : (after ops).Enumeration) :
    Same (order.records.foldl upsert new) (after ops) := by
  have hperm := perm_entries_rebuild (keyed_after ops) order.perm
  rw [Same, positions_foldl_upsert]
  exact hperm

/-- **Snapshots lose nothing.**  For every run and every order of enumeration, the
snapshot restores to a book with the same records, which answers every further
sequence of calls as the original does. -/
theorem restore_snapshot (serde : SnapshotJson F) (path : String) (ops : List (Op F))
    (order : (after ops).Enumeration) (hserde : serde.RoundTrips order.records) :
    ∃ file restored, (after ops).snapshot serde order path (.ok ()) = .ok file ∧
      restore serde path (.ok file) = .ok restored ∧
      (∀ positionId, restored.get positionId = (after ops).get positionId) ∧
      restored.len = (after ops).len ∧
      ∀ further, Machine.outputs step restored further =
        Machine.outputs step (after ops) further := by
  obtain ⟨json, hwrite, hread⟩ := hserde
  have hsame := same_foldl_upsert ops order
  refine ⟨utf8 json, order.records.foldl upsert new, ?_, ?_, hsame.get, hsame.len, ?_⟩
  · simp only [snapshot, hwrite, Except.mapError, bind, Except.bind]
    rfl
  · simp only [restore, decodeUtf8_utf8, hread, Except.mapError, bind, Except.bind]
    rfl
  · exact fun further => Machine.outputs_eq_of_bisim (fun _ _ op h => h.step op) hsame further

/-! ## A sample position -/

/-- `serde_json` as far as one list is concerned. -/
def sampleJson (records : List (PositionRecord F)) (json : List Char) : SnapshotJson F where
  toStringPretty _ := .ok json
  fromStr text := if text = json then .ok records else .error "malformed snapshot"

theorem sampleJson_roundTrips (records : List (PositionRecord F)) (json : List Char) :
    (sampleJson records json).RoundTrips records :=
  ⟨json, rfl, if_pos rfl⟩

def samplePosition (slot : Nat) : PositionRecord ℚ :=
  ⟨.kamino, Bytes32.fill 9, Bytes32.fill 1, Bytes32.fill 2, 97 / 100, slot⟩

/-- 32 times the same one-digit byte, one to a line. -/
def prettyKey (digit : Char) : List Char :=
  "[\n".toList ++ (List.replicate 31 ("      ".toList ++ [digit, ',', '\n'])).flatten ++
    "      ".toList ++ [digit, '\n'] ++ "    ]".toList

/-- The snapshot of a book that holds the sample position at slot 200. -/
def samplePretty : List Char :=
  "[\n  \x7b\n    \"protocol\": \"Kamino\",\n    \"position_id\": ".toList ++ prettyKey '9' ++
    ",\n    \"collateral_mint\": ".toList ++ prettyKey '1' ++
    ",\n    \"debt_mint\": ".toList ++ prettyKey '2' ++
    ",\n    \"health_factor\": 0.97,\n    \"last_updated_slot\": 200\n  \x7d\n]".toList

/-- A position upserted twice is restored at its later slot. -/
theorem restore_snapshot_overwritten :
    let ops : List (Op ℚ) := [.upsert (samplePosition 100), .upsert (samplePosition 200)]
    ∃ order : (after ops).Enumeration, order.records = [samplePosition 200] ∧
      ∃ file restored, (after ops).snapshot (sampleJson [samplePosition 200] samplePretty) order
          "position_book.json" (.ok ()) = .ok file ∧
        restore (sampleJson [samplePosition 200] samplePretty) "position_book.json" (.ok file) =
          .ok restored ∧
        (∀ positionId, restored.get positionId = (after ops).get positionId) ∧
        restored.len = (after ops).len ∧
        ∀ further, Machine.outputs step restored further =
          Machine.outputs step (after ops) further := by
  intro ops
  have hvalues : [samplePosition 200] = values (after ops).positions := by decide +kernel
  refine ⟨⟨[samplePosition 200], .of_eq hvalues⟩, rfl, ?_⟩
  exact restore_snapshot _ _ ops _ (sampleJson_roundTrips _ _)

end PositionBook

end Gyrfalcon
