import Mathlib.Data.List.DropRight

/-!
# Lines of a UTF-8 text

A text is a list of characters and a file a list of bytes.  `lines` cuts a text
at its newlines the way a line iterator does: a carriage return in front of the
newline goes with it, a last line needs no newline, and nothing follows a final
newline.  `unlines` writes lines back; `lines_unlines_append` says that what was
written is what is read.  `splitAt` cuts a text at a byte position, which has to
be the end of a character.
-/

namespace TextLines

/-! ## UTF-8 -/

def utf8 (text : List Char) : List UInt8 := text.flatMap String.utf8EncodeChar

/-- The text a file holds, unless its bytes are not UTF-8. -/
def decodeUtf8 (bytes : List UInt8) : Option (List Char) :=
  bytes.toByteArray.utf8Decode?.map Array.toList

@[simp] theorem utf8_append (a b : List Char) : utf8 (a ++ b) = utf8 a ++ utf8 b :=
  List.flatMap_append

@[simp] theorem decodeUtf8_utf8 (text : List Char) : decodeUtf8 (utf8 text) = some text := by
  have h : (utf8 text).toByteArray.utf8Decode? = some text.toArray := List.utf8Decode?_utf8Encode
  rw [decodeUtf8, h]
  rfl

theorem utf8_of_decodeUtf8 {bytes : List UInt8} {text : List Char}
    (h : decodeUtf8 bytes = some text) : utf8 text = bytes := by
  obtain ⟨chars, hchars, rfl⟩ := Option.map_eq_some_iff.mp h
  have hsome : bytes.toByteArray.utf8Decode?.isSome := by rw [hchars]; rfl
  have hencode := ByteArray.utf8Encode_get_utf8Decode? (h := hsome)
  simp only [hchars, Option.get_some] at hencode
  exact List.toByteArray_inj.mp hencode

/-- A text whose bytes start with those of `a` starts with `a`. -/
theorem exists_append_of_utf8 {a text : List Char} {rest : List UInt8}
    (h : utf8 text = utf8 a ++ rest) : ∃ b, text = a ++ b ∧ utf8 b = rest := by
  have hbytes : a.utf8Encode ++ rest.toByteArray = text.utf8Encode := by
    rw [List.utf8Encode, List.utf8Encode, ← List.toByteArray_append]
    exact congrArg List.toByteArray h.symm
  obtain ⟨b, rfl⟩ := List.isPrefix_of_utf8Encode_append_eq_utf8Encode _ hbytes
  rw [utf8_append] at h
  exact ⟨b, rfl, List.append_cancel_left h⟩

/-! ## Byte positions -/

/-- The text before and after the byte position `mid`, unless that falls inside a
character or behind the end. -/
def splitAt : List Char → Nat → Option (List Char × List Char)
  | text, 0 => some ([], text)
  | [], _ + 1 => none
  | c :: text, mid + 1 =>
    if c.utf8Size ≤ mid + 1 then
      (splitAt text (mid + 1 - c.utf8Size)).map fun parts => (c :: parts.1, parts.2)
    else none

@[simp] theorem length_utf8_cons (c : Char) (text : List Char) :
    (utf8 (c :: text)).length = c.utf8Size + (utf8 text).length := by
  simp [utf8]

theorem length_utf8_eq_zero_iff {text : List Char} : (utf8 text).length = 0 ↔ text = [] := by
  cases text with
  | nil => simp [utf8]
  | cons c text =>
    have hpos := c.utf8Size_pos
    simp only [length_utf8_cons, reduceCtorEq, iff_false]
    omega

theorem splitAt_eq_some_iff (text : List Char) (mid : Nat) (a b : List Char) :
    splitAt text mid = some (a, b) ↔ text = a ++ b ∧ (utf8 a).length = mid := by
  fun_induction splitAt text mid generalizing a with
  | case1 text =>
    rw [length_utf8_eq_zero_iff, Option.some.injEq, Prod.mk.injEq]
    constructor
    · rintro ⟨rfl, rfl⟩
      exact ⟨rfl, rfl⟩
    · rintro ⟨rfl, rfl⟩
      exact ⟨rfl, rfl⟩
  | case2 mid =>
    refine ⟨(nomatch ·), ?_⟩
    rintro ⟨hnil, hlen⟩
    obtain ⟨rfl, rfl⟩ := List.append_eq_nil_iff.mp hnil.symm
    cases hlen
  | case3 c text mid hsize ih =>
    cases a with
    | nil => simp [utf8]
    | cons c' a =>
      have hmap : (splitAt text (mid + 1 - c.utf8Size)).map
          (fun parts => (c :: parts.1, parts.2)) = some (c' :: a, b) ↔
          c = c' ∧ splitAt text (mid + 1 - c.utf8Size) = some (a, b) := by
        rw [Option.map_eq_some_iff]
        constructor
        · rintro ⟨⟨a', b'⟩, h, heq⟩
          cases heq
          exact ⟨rfl, h⟩
        · rintro ⟨rfl, h⟩
          exact ⟨(a, b), h, rfl⟩
      rw [hmap, ih, List.cons_append, List.cons.injEq, length_utf8_cons, and_assoc]
      refine and_congr_right fun hc => and_congr_right fun _ => ?_
      subst hc
      omega
  | case4 c text mid hsize =>
    refine ⟨(nomatch ·), ?_⟩
    rintro ⟨htext, hlen⟩
    cases a with
    | nil => cases hlen
    | cons c' a =>
      cases htext
      rw [length_utf8_cons] at hlen
      omega

/-- One byte before the end stands a boundary only if the last character is a
single byte. -/
theorem splitAt_concat (text : List Char) (c : Char) :
    splitAt (text ++ [c]) ((utf8 (text ++ [c])).length - 1) =
      if c.utf8Size = 1 then some (text, [c]) else none := by
  have hlen : (utf8 (text ++ [c])).length = (utf8 text).length + c.utf8Size := by simp [utf8]
  split
  · next hone =>
    rw [splitAt_eq_some_iff]
    exact ⟨rfl, by omega⟩
  · next hmany =>
    cases hsplit : splitAt (text ++ [c]) ((utf8 (text ++ [c])).length - 1) with
    | none => rfl
    | some parts =>
      obtain ⟨htext, hmid⟩ := (splitAt_eq_some_iff _ _ parts.1 parts.2).mp hsplit
      have hpos := c.utf8Size_pos
      rcases List.eq_nil_or_concat parts.2 with hb | ⟨b, c', hb⟩
      · rw [hb, List.append_nil] at htext
        rw [← htext] at hmid
        omega
      · rw [hb, List.concat_eq_append, ← List.append_assoc] at htext
        obtain ⟨hleading, -⟩ := List.append_inj' htext rfl
        have hshort : (utf8 text).length = (utf8 parts.1).length + (utf8 b).length := by
          rw [hleading, utf8_append, List.length_append]
        omega

/-! ## Splitting -/

/-- Each piece ends with its newline, if it has one. -/
def splitInclusive : List Char → List (List Char)
  | [] => []
  | c :: cs =>
    if c = '\n' then [c] :: splitInclusive cs
    else
      match splitInclusive cs with
      | [] => [[c]]
      | piece :: pieces => (c :: piece) :: pieces

def stripSuffix (c : Char) (line : List Char) : Option (List Char) :=
  if line.getLast? = some c then some line.dropLast else none

/-- Without `\n`, or without `\r\n`. -/
def stripLineEnding (piece : List Char) : List Char :=
  match stripSuffix '\n' piece with
  | none => piece
  | some line => (stripSuffix '\r' line).getD line

def lines (text : List Char) : List (List Char) := (splitInclusive text).map stripLineEnding

/-- What a line iterator gives back unchanged. -/
structure IsLine (line : List Char) : Prop where
  newline : '\n' ∉ line
  carriageReturn : '\r' ∉ line

theorem isLine_iff {line : List Char} : IsLine line ↔ ∀ c ∈ line, c ≠ '\n' ∧ c ≠ '\r' := by
  constructor
  · intro h c hc
    exact ⟨fun heq => h.newline (heq ▸ hc), fun heq => h.carriageReturn (heq ▸ hc)⟩
  · intro h
    exact ⟨fun hmem => (h _ hmem).1 rfl, fun hmem => (h _ hmem).2 rfl⟩

/-- The same, to be evaluated on a given line. -/
theorem isLine_iff_all {line : List Char} :
    IsLine line ↔ line.all (fun c => c != '\n' && c != '\r') = true := by
  simp [isLine_iff]

theorem splitInclusive_line_append {line : List Char} (h : '\n' ∉ line) (rest : List Char) :
    splitInclusive (line ++ '\n' :: rest) = (line ++ ['\n']) :: splitInclusive rest := by
  induction line with
  | nil => simp [splitInclusive]
  | cons c line ih =>
    have hc : c ≠ '\n' := fun hc => h (hc ▸ List.mem_cons_self)
    rw [List.cons_append, splitInclusive, if_neg hc, ih fun hmem => h (List.mem_cons_of_mem c hmem)]
    rfl

theorem splitInclusive_line {line : List Char} (h : '\n' ∉ line) (hne : line ≠ []) :
    splitInclusive line = [line] := by
  induction line with
  | nil => exact absurd rfl hne
  | cons c line ih =>
    have hc : c ≠ '\n' := fun hc => h (hc ▸ List.mem_cons_self)
    rw [splitInclusive, if_neg hc]
    cases line with
    | nil => rfl
    | cons c' line => rw [ih (fun hmem => h (List.mem_cons_of_mem c hmem)) (by simp)]

theorem stripSuffix_of_not_mem {c : Char} {line : List Char} (h : c ∉ line) :
    stripSuffix c line = none := by
  rw [stripSuffix, if_neg]
  intro hlast
  exact h (List.mem_of_getLast? hlast)

theorem IsLine.stripLineEnding_newline {line : List Char} (h : IsLine line) :
    stripLineEnding (line ++ ['\n']) = line := by
  have hnewline : stripSuffix '\n' (line ++ ['\n']) = some line := by simp [stripSuffix]
  rw [stripLineEnding, hnewline]
  simp only [stripSuffix_of_not_mem h.carriageReturn, Option.getD_none]

theorem IsLine.stripLineEnding_self {line : List Char} (h : IsLine line) :
    stripLineEnding line = line := by
  rw [stripLineEnding, stripSuffix_of_not_mem h.newline]

/-! ## Writing -/

/-- Each line with a newline behind it. -/
def unlines (ls : List (List Char)) : List Char := ls.flatMap (· ++ ['\n'])

/-- Reading a text that starts with whole lines. -/
theorem lines_unlines_append {ls : List (List Char)} (h : ∀ line ∈ ls, IsLine line)
    (rest : List Char) : lines (unlines ls ++ rest) = ls ++ lines rest := by
  induction ls with
  | nil => rfl
  | cons line ls ih =>
    have hline := h line List.mem_cons_self
    have hls := ih fun line' hmem => h line' (List.mem_cons_of_mem line hmem)
    have hsplit : unlines (line :: ls) ++ rest = line ++ '\n' :: (unlines ls ++ rest) := by
      simp [unlines]
    rw [hsplit, lines, splitInclusive_line_append hline.newline, List.map_cons,
      hline.stripLineEnding_newline]
    exact congrArg (line :: ·) hls

theorem lines_unlines {ls : List (List Char)} (h : ∀ line ∈ ls, IsLine line) :
    lines (unlines ls) = ls := by
  have hread := lines_unlines_append h []
  rw [List.append_nil] at hread
  exact hread.trans (List.append_nil ls)

/-- A last line without a newline is a line. -/
theorem IsLine.lines_self {line : List Char} (h : IsLine line) (hne : line ≠ []) :
    lines line = [line] := by
  rw [lines, splitInclusive_line h.newline hne, List.map_singleton, h.stripLineEnding_self]

/-- A line at the end of a text is read, with its newline or without. -/
theorem IsLine.mem_lines {ls : List (List Char)} (hls : ∀ line ∈ ls, IsLine line)
    {line : List Char} (h : IsLine line) (hne : line ≠ []) :
    line ∈ lines (unlines ls ++ line) ∧ line ∈ lines (unlines ls ++ (line ++ ['\n'])) := by
  have hnewline : line ++ ['\n'] = unlines [line] := by simp [unlines]
  constructor
  · rw [lines_unlines_append hls, h.lines_self hne]
    exact List.mem_append_right _ (List.mem_singleton_self line)
  · rw [lines_unlines_append hls, hnewline, lines_unlines (by simpa using h)]
    exact List.mem_append_right _ (List.mem_singleton_self line)

theorem IsLine.append {a b : List Char} (ha : IsLine a) (hb : IsLine b) : IsLine (a ++ b) := by
  constructor
  · simpa using ⟨ha.newline, hb.newline⟩
  · simpa using ⟨ha.carriageReturn, hb.carriageReturn⟩

theorem IsLine.of_append {a b : List Char} (h : IsLine (a ++ b)) : IsLine a :=
  ⟨fun hmem => h.newline (List.mem_append_left b hmem),
    fun hmem => h.carriageReturn (List.mem_append_left b hmem)⟩

/-- A first part of a written line is the whole of it or a part of the line. -/
theorem part_of_line {line part rest : List Char} (h : line ++ ['\n'] = part ++ rest) :
    part = line ++ ['\n'] ∧ rest = [] ∨
      ∃ more, line = part ++ more ∧ rest = more ++ ['\n'] := by
  rcases List.eq_nil_or_concat rest with rfl | ⟨more, c, rfl⟩
  · exact Or.inl ⟨by simpa using h.symm, rfl⟩
  · rw [List.concat_eq_append, ← List.append_assoc] at h
    obtain ⟨hline, hc⟩ := List.append_inj' h rfl
    exact Or.inr ⟨more, hline, by rw [List.concat_eq_append, ← hc]⟩

/-! ## Blank lines -/

/-- The Unicode property `White_Space`. -/
def isWhitespace (c : Char) : Bool :=
  (0x9 ≤ c.toNat && c.toNat ≤ 0xD) || c.toNat == 0x20 || c.toNat == 0x85 || c.toNat == 0xA0 ||
    c.toNat == 0x1680 || (0x2000 ≤ c.toNat && c.toNat ≤ 0x200A) || c.toNat == 0x2028 ||
    c.toNat == 0x2029 || c.toNat == 0x202F || c.toNat == 0x205F || c.toNat == 0x3000

/-- Without white space on either side. -/
def trim (text : List Char) : List Char := (text.dropWhile isWhitespace).rdropWhile isWhitespace

theorem trim_cons_ne_nil {c : Char} (h : isWhitespace c = false) (text : List Char) :
    trim (c :: text) ≠ [] := by
  rw [trim, List.dropWhile_cons_of_neg (by simp [h]), Ne, List.rdropWhile_eq_nil_iff]
  intro hall
  have hc := hall c List.mem_cons_self
  rw [h] at hc
  cases hc

end TextLines
