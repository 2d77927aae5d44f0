import Mathlib.Algebra.BigOperators.Group.List.Basic
import Mathlib.Algebra.GroupWithZero.Nat
import Mathlib.Data.List.Nodup

/-!
# Fixed layouts

A record in a block of fixed length: the layout lists its fields with their
widths, a field is the part of the block at its offset.  What is packed field
by field is found again at every field.  The second part is a run of blocks of
one width, written over what was there and cut out again.
-/

namespace Layout

variable {F α β : Type}

/-- `[α; n]`. -/
abbrev Block (α : Type) (n : Nat) := { items : List α // items.length = n }

/-! ## Fields -/

section Fields

/-- The fields, one after the other. -/
def pack (layout : List (F × Nat)) (part : F → List α) : List α :=
  layout.flatMap fun entry => part entry.1

variable {layout : List (F × Nat)} {part : F → List α}

theorem length_pack (h : ∀ entry ∈ layout, (part entry.1).length = entry.2) :
    (pack layout part).length = (layout.map Prod.snd).sum := by
  induction layout with
  | nil => rfl
  | cons entry layout ih =>
    obtain ⟨hhere, hrest⟩ := List.forall_mem_cons.mp h
    have hlen := ih hrest
    simp only [pack] at hlen ⊢
    rw [List.flatMap_cons, List.length_append, hhere, hlen, List.map_cons, List.sum_cons]

variable [DecidableEq F]

/-- What stands before a field. -/
def offset (layout : List (F × Nat)) (field : F) : Nat :=
  ((layout.takeWhile fun entry => entry.1 ≠ field).map Prod.snd).sum

/-- The width of a field. -/
def width (layout : List (F × Nat)) (field : F) : Nat :=
  ((layout.find? fun entry => entry.1 = field).map Prod.snd).getD 0

theorem offset_cons_of_ne {entry : F × Nat} {field : F} (h : entry.1 ≠ field) :
    offset (entry :: layout) field = entry.2 + offset layout field := by
  simp [offset, h]

theorem width_cons_of_ne {entry : F × Nat} {field : F} (h : entry.1 ≠ field) :
    width (entry :: layout) field = width layout field := by
  simp [width, h]

/-- **A field is found where it was packed**, whatever follows the record. -/
theorem slice_pack (part : F → List α)
    (h : ∀ entry ∈ layout, (part entry.1).length = entry.2) {field : F}
    (hfield : field ∈ layout.map Prod.fst) (rest : List α) :
    ((pack layout part ++ rest).drop (offset layout field)).take (width layout field) =
      part field := by
  induction layout with
  | nil => simp at hfield
  | cons entry layout ih =>
    obtain ⟨hhere, hrest⟩ := List.forall_mem_cons.mp h
    have hpack : pack (entry :: layout) part ++ rest =
        part entry.1 ++ (pack layout part ++ rest) := by
      simp [pack]
    rw [hpack]
    by_cases heq : entry.1 = field
    · subst heq
      have hoffset : offset (entry :: layout) entry.1 = 0 := by simp [offset]
      have hwidth : width (entry :: layout) entry.1 = entry.2 := by simp [width]
      rw [hoffset, hwidth, List.drop_zero, List.take_left' hhere]
    · have hmem : field ∈ layout.map Prod.fst := by
        rw [List.map_cons, List.mem_cons] at hfield
        exact hfield.resolve_left fun hf => heq hf.symm
      rw [offset_cons_of_ne heq, width_cons_of_ne heq, ← List.drop_drop, List.drop_left' hhere]
      exact ih hrest hmem

theorem width_of_mem (hkeys : (layout.map Prod.fst).Nodup) {entry : F × Nat}
    (hentry : entry ∈ layout) : width layout entry.1 = entry.2 := by
  induction layout with
  | nil => simp at hentry
  | cons first layout ih =>
    rw [List.map_cons, List.nodup_cons] at hkeys
    by_cases heq : first.1 = entry.1
    · rcases List.mem_cons.mp hentry with rfl | hmem
      · simp [width]
      · exact absurd (heq ▸ List.mem_map_of_mem hmem) hkeys.1
    · have hmem : entry ∈ layout := (List.mem_cons.mp hentry).resolve_left fun h => heq (h ▸ rfl)
      rw [width_cons_of_ne heq, ih hkeys.2 hmem]

/-- The length of the record. -/
def total (layout : List (F × Nat)) : Nat := (layout.map Prod.snd).sum

theorem offset_add_width_le (layout : List (F × Nat)) (field : F) :
    offset layout field + width layout field ≤ total layout := by
  induction layout with
  | nil => simp [offset, width, total]
  | cons entry layout ih =>
    by_cases heq : entry.1 = field
    · simp [offset, width, total, heq]
    · rw [offset_cons_of_ne heq, width_cons_of_ne heq, total, List.map_cons, List.sum_cons]
      rw [total] at ih
      omega

/-- A field of a record. -/
def field {layout : List (F × Nat)} (record : Block α (total layout)) (f : F) :
    Block α (width layout f) :=
  ⟨(record.1.drop (offset layout f)).take (width layout f), by
    have hle := offset_add_width_le layout f
    rw [List.length_take, List.length_drop, record.2]
    omega⟩

/-- The last field is the end of the record. -/
theorem field_of_last {f : F} (h : offset layout f + width layout f = total layout)
    (record : Block α (total layout)) : (field record f).1 = record.1.drop (offset layout f) := by
  refine List.take_of_length_le ?_
  rw [List.length_drop, record.2]
  omega

/-- A record, field by field. -/
def record (hkeys : (layout.map Prod.fst).Nodup) (part : (f : F) → Block α (width layout f)) :
    Block α (total layout) :=
  ⟨pack layout fun f => (part f).1,
    length_pack fun _ hentry => (part _).2.trans (width_of_mem hkeys hentry)⟩

/-- **Every field reads what was written.** -/
theorem field_record (hkeys : (layout.map Prod.fst).Nodup)
    (part : (f : F) → Block α (width layout f)) {f : F} (hf : f ∈ layout.map Prod.fst) :
    field (record hkeys part) f = part f := by
  refine Subtype.ext ?_
  have hslice := slice_pack (fun f => (part f).1)
    (fun _ hentry => (part _).2.trans (width_of_mem hkeys hentry)) hf []
  rw [List.append_nil] at hslice
  exact hslice

/-- The slices of a record, one after the other, are the record. -/
theorem pack_slices (hkeys : (layout.map Prod.fst).Nodup) {data : List α}
    (hlen : data.length = total layout) :
    pack layout (fun f => (data.drop (offset layout f)).take (width layout f)) = data := by
  induction layout generalizing data with
  | nil => exact (List.eq_nil_of_length_eq_zero hlen).symm
  | cons entry layout ih =>
    rw [List.map_cons, List.nodup_cons] at hkeys
    rw [total, List.map_cons, List.sum_cons] at hlen
    have hrest : (data.drop entry.2).length = total layout := by
      rw [List.length_drop, hlen, total]
      omega
    have hoffset : offset (entry :: layout) entry.1 = 0 := by simp [offset]
    have hwidth : width (entry :: layout) entry.1 = entry.2 := by simp [width]
    have hothers : pack layout (fun f => (data.drop (offset (entry :: layout) f)).take
          (width (entry :: layout) f)) =
        pack layout (fun f => ((data.drop entry.2).drop (offset layout f)).take
          (width layout f)) := by
      refine List.flatMap_congr fun other hother => ?_
      have hne : entry.1 ≠ other.1 := fun heq => hkeys.1 (heq ▸ List.mem_map_of_mem hother)
      dsimp only
      rw [offset_cons_of_ne hne, width_cons_of_ne hne, List.drop_drop]
    have hsplit : pack (entry :: layout) (fun f => (data.drop (offset (entry :: layout) f)).take
          (width (entry :: layout) f)) =
        (data.drop (offset (entry :: layout) entry.1)).take (width (entry :: layout) entry.1) ++
          pack layout (fun f => (data.drop (offset (entry :: layout) f)).take
            (width (entry :: layout) f)) := List.flatMap_cons
    rw [hsplit, hothers, ih hkeys.2 hrest, hoffset, hwidth, List.drop_zero, List.take_append_drop]

/-- **A record is its fields.** -/
theorem record_field (hkeys : (layout.map Prod.fst).Nodup) (block : Block α (total layout)) :
    record hkeys (fun f => field block f) = block :=
  Subtype.ext (pack_slices hkeys block.2)

end Fields

/-! ## Runs of blocks -/

/-- The next `n` blocks, and what follows them. -/
def cut (w : Nat) : Nat → List α → Option (List (Block α w) × List α)
  | 0, data => some ([], data)
  | n + 1, data =>
    if h : w ≤ data.length then
      match cut w n (data.drop w) with
      | none => none
      | some (blocks, rest) => some (⟨data.take w, List.length_take_of_le h⟩ :: blocks, rest)
    else none

/-- A block for each item, written over the next ones, and what follows them. -/
def write {w : Nat} (put : β → Block α w → Option (Block α w)) :
    List β → List α → Option (List α × List α)
  | [], data => some ([], data)
  | item :: items, data =>
    if h : w ≤ data.length then
      match put item ⟨data.take w, List.length_take_of_le h⟩, write put items (data.drop w) with
      | some block, some (written, rest) => some (block.1 ++ written, rest)
      | _, _ => none
    else none

/-- There have to be that many. -/
theorem exists_cut_iff {w n : Nat} {data : List α} :
    (∃ blocks rest, cut w n data = some (blocks, rest)) ↔ w * n ≤ data.length := by
  induction n generalizing data with
  | zero => simp [cut]
  | succ n ih =>
    have hmul : w * (n + 1) = w * n + w := Nat.mul_succ w n
    by_cases h : w ≤ data.length
    · have htail := @ih (data.drop w)
      rw [List.length_drop] at htail
      simp only [cut, dif_pos h]
      cases hcut : cut w n (data.drop w) with
      | none =>
        simp only [hcut, reduceCtorEq, exists_false, false_iff] at htail ⊢
        omega
      | some result =>
        have hfits := htail.mp ⟨result.1, result.2, hcut⟩
        refine iff_of_true ⟨_, _, rfl⟩ ?_
        omega
    · simp only [cut, dif_neg h, reduceCtorEq, exists_false, false_iff]
      omega

/-- There are as many blocks as were asked for, and the rest is what they leave. -/
theorem length_cut {w n : Nat} {data rest : List α} {blocks : List (Block α w)}
    (h : cut w n data = some (blocks, rest)) :
    blocks.length = n ∧ w * n + rest.length = data.length := by
  induction n generalizing data blocks rest with
  | zero =>
    obtain ⟨rfl, rfl⟩ := Prod.mk.inj (Option.some.inj h)
    exact ⟨rfl, Nat.zero_add _⟩
  | succ n ih =>
    rw [cut] at h
    split at h
    · next hlen =>
      split at h
      · cases h
      · next blocks' rest' hcut =>
        obtain ⟨rfl, rfl⟩ := Prod.mk.inj (Option.some.inj h)
        obtain ⟨hblocks, hrest⟩ := ih hcut
        rw [List.length_drop] at hrest
        refine ⟨by rw [List.length_cons, hblocks], ?_⟩
        rw [Nat.mul_succ]
        omega
    · cases h

section Write

variable {w : Nat} {put : β → Block α w → Option (Block α w)} {items : List β}
  {data written rest : List α}

/-- There has to be room, and every item has to be accepted. -/
theorem exists_write_iff {ok : β → Prop}
    (hput : ∀ item block, (∃ b, put item block = some b) ↔ ok item) :
    (∃ written rest, write put items data = some (written, rest)) ↔
      w * items.length ≤ data.length ∧ ∀ item ∈ items, ok item := by
  induction items generalizing data with
  | nil => simp [write]
  | cons item items ih =>
    have hmul : w * (item :: items).length = w * items.length + w := Nat.mul_succ w _
    rw [hmul, List.forall_mem_cons]
    by_cases h : w ≤ data.length
    · have htail := @ih (data.drop w)
      rw [List.length_drop] at htail
      have hhead := hput item ⟨data.take w, List.length_take_of_le h⟩
      simp only [write, dif_pos h]
      cases hblock : put item ⟨data.take w, List.length_take_of_le h⟩ with
      | none =>
        refine iff_of_false (by simp) fun hall => ?_
        obtain ⟨b, hb⟩ := hhead.mpr hall.2.1
        simp [hblock] at hb
      | some block =>
        have hok := hhead.mp ⟨block, hblock⟩
        cases hrest : write put items (data.drop w) with
        | none =>
          refine iff_of_false (by simp) fun hall => ?_
          obtain ⟨_, _, hsome⟩ := htail.mpr ⟨by omega, hall.2.2⟩
          simp [hrest] at hsome
        | some result =>
          obtain ⟨hroom, hall⟩ := htail.mp ⟨result.1, result.2, hrest⟩
          exact iff_of_true ⟨_, _, rfl⟩ ⟨by omega, hok, hall⟩
    · simp only [write, dif_neg h, reduceCtorEq, exists_false, false_iff]
      omega

/-- **What was written is cut out again**, whatever follows, and nothing else is touched. -/
theorem cut_write {get : Block α w → β}
    (hput : ∀ {item old new}, put item old = some new → get new = item)
    (h : write put items data = some (written, rest)) (more : List α) :
    (∃ blocks, cut w items.length (written ++ more) = some (blocks, more) ∧
      blocks.map get = items) ∧ written.length = w * items.length ∧
        rest = data.drop (w * items.length) := by
  induction items generalizing data written rest with
  | nil =>
    obtain ⟨rfl, rfl⟩ := Prod.mk.inj (Option.some.inj h)
    exact ⟨⟨[], rfl, rfl⟩, rfl, rfl⟩
  | cons item items ih =>
    rw [write] at h
    split at h
    · next hlen =>
      split at h
      · next block written' rest' hblock hwrite =>
        obtain ⟨rfl, rfl⟩ := Prod.mk.inj (Option.some.inj h)
        obtain ⟨⟨blocks, hcut, hget⟩, hlength, hrest⟩ := ih hwrite
        have hmul : w * (item :: items).length = w + w * items.length := by
          rw [List.length_cons, Nat.mul_succ, Nat.add_comm]
        refine ⟨⟨block :: blocks, ?_, ?_⟩, ?_, ?_⟩
        · have hroom : w ≤ (block.1 ++ (written' ++ more)).length := by
            rw [List.length_append, block.2]
            exact Nat.le_add_right _ _
          have hdrop : (block.1 ++ (written' ++ more)).drop w = written' ++ more :=
            List.drop_left' block.2
          have htake : (block.1 ++ (written' ++ more)).take w = block.1 := List.take_left' block.2
          rw [List.append_assoc, List.length_cons, cut, dif_pos hroom]
          simp only [hdrop, hcut, htake]
        · rw [List.map_cons, hput hblock, hget]
        · rw [List.length_append, block.2, hlength, hmul]
        · rw [hrest, List.drop_drop, hmul]
      · cases h
    · cases h

/-- Nothing is added and nothing lost. -/
theorem length_write (h : write put items data = some (written, rest)) :
    written.length + rest.length = data.length := by
  induction items generalizing data written rest with
  | nil =>
    obtain ⟨rfl, rfl⟩ := Prod.mk.inj (Option.some.inj h)
    exact Nat.zero_add _
  | cons item items ih =>
    rw [write] at h
    split at h
    · next hlen =>
      split at h
      · next block written' rest' hblock hwrite =>
        obtain ⟨rfl, rfl⟩ := Prod.mk.inj (Option.some.inj h)
        have htail := ih hwrite
        rw [List.length_drop] at htail
        rw [List.length_append, block.2]
        omega
      · cases h
    · cases h

/-- **What was cut out is written where it was.** -/
theorem write_cut {get : Block α w → β} (hput : ∀ block, put (get block) block = some block)
    {n : Nat} {blocks : List (Block α w)} (h : cut w n data = some (blocks, rest)) :
    ∃ written, write put (blocks.map get) data = some (written, rest) ∧ written ++ rest = data := by
  induction n generalizing data blocks rest with
  | zero =>
    obtain ⟨rfl, rfl⟩ := Prod.mk.inj (Option.some.inj h)
    exact ⟨[], rfl, rfl⟩
  | succ n ih =>
    rw [cut] at h
    split at h
    · next hlen =>
      split at h
      · cases h
      · next blocks' rest' hcut =>
        obtain ⟨rfl, rfl⟩ := Prod.mk.inj (Option.some.inj h)
        obtain ⟨written, hwrite, happend⟩ := ih hcut
        refine ⟨data.take w ++ written, ?_, ?_⟩
        · rw [List.map_cons, write, dif_pos hlen, hput, hwrite]
        · rw [List.append_assoc, happend, List.take_append_drop]
    · cases h

end Write

end Layout
