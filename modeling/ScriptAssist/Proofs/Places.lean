import ScriptAssist.Text.Position
import Mathlib.Data.List.DropRight

/-!
# Places of a text

A place of a text is given by what stands before it.  Its position counts the
line feeds before it and the columns since the last of them; this module shows
that decoding the position leads back to the place.  The only places that this
does not hold for are those between the two characters of a line ending.
-/

namespace ScriptAssist
namespace Text

/-!
# Columns of a line
-/

theorem columnIndex_zero (line : Text) : columnIndex line 0 = 0 := by
  cases line <;> rfl

theorem columnIndex_columns (before after : Text) :
    columnIndex (before ++ after) (columns before) = before.length := by
  induction before with
  | nil =>
      exact columnIndex_zero after
  | cons c rest ih =>
      have hunits : ∃ n, unitsOf c = n + 1 :=
        Nat.exists_eq_succ_of_ne_zero (Nat.ne_of_gt (unitsOf_pos c))
      rcases hunits with ⟨n, hn⟩
      have hcolumns : columns (c :: rest) = n + columns rest + 1 := by
        rw [columns_cons, hn]
        omega
      have hremaining : n + columns rest + 1 - unitsOf c = columns rest := by
        omega
      rw [hcolumns, List.cons_append, columnIndex, hremaining, ih, List.length_cons]
      omega

/-!
# Whole lines

A text of whole lines is empty or ends with a line feed.
-/

def WholeLines (text : Text) : Prop :=
  text = [] ∨ text.getLast? = some '\n'

theorem WholeLines.tail {c : Char} {text : Text} (h : WholeLines (c :: text)) :
    WholeLines text := by
  cases text with
  | nil =>
      exact Or.inl rfl
  | cons d rest =>
      rcases h with h | h
      · cases h
      · exact Or.inr (by rwa [List.getLast?_cons_cons] at h)

theorem WholeLines.count_pos {c : Char} {text : Text} (h : WholeLines (c :: text))
    (hc : c ≠ '\n') : 0 < text.count '\n' := by
  rcases h with h | h
  · cases h
  · have hmem : '\n' ∈ c :: text := List.mem_of_getLast? h
    rcases List.mem_cons.mp hmem with heq | hrest
    · exact absurd heq.symm hc
    · exact List.count_pos_iff.mpr hrest

def lastLine (text : Text) : Text :=
  text.rtakeWhile (· != '\n')

def endedLines (text : Text) : Text :=
  text.rdropWhile (· != '\n')

theorem endedLines_append_lastLine (text : Text) :
    endedLines text ++ lastLine text = text :=
  List.rdropWhile_append_rtakeWhile

theorem wholeLines_endedLines (text : Text) : WholeLines (endedLines text) := by
  by_cases hnil : endedLines text = []
  · exact Or.inl hnil
  · have hlast := List.rdropWhile_last_not (· != '\n') text hnil
    right
    rw [List.getLast?_eq_some_getLast hnil]
    simpa [endedLines] using hlast

theorem newline_not_mem_lastLine (text : Text) : '\n' ∉ lastLine text := by
  intro hmem
  have h := List.mem_rtakeWhile_imp hmem
  simp at h

theorem count_endedLines (text : Text) :
    (endedLines text).count '\n' = text.count '\n' := by
  have h := congrArg (List.count '\n') (endedLines_append_lastLine text)
  rw [List.count_append, List.count_eq_zero.mpr (newline_not_mem_lastLine text)] at h
  exact h

/-!
# First lines
-/

theorem dropReturn_append {rest : Text} (text : Text) (h : rest ≠ []) :
    dropReturn (text ++ rest) = text ++ dropReturn rest := by
  have hlast : (text ++ rest).getLast? = rest.getLast? := by
    rw [List.getLast?_append_of_ne_nil text h]
  rw [dropReturn, dropReturn, hlast]
  split
  · exact List.dropLast_append_of_ne_nil h
  · rfl

theorem dropReturn_of_getLast?_ne {text : Text} (h : text.getLast? ≠ some '\r') :
    dropReturn text = text :=
  if_neg h

theorem takeWhile_append_of_not_mem {text : Text} (h : '\n' ∉ text) (after : Text) :
    (text ++ after).takeWhile (· != '\n') = text ++ after.takeWhile (· != '\n') := by
  apply List.takeWhile_append_of_pos
  intro c hc
  have hne : c ≠ '\n' := by
    intro heq
    exact h (heq ▸ hc)
  simpa using hne

theorem takeWhile_dropWhile_append {p : Char → Bool} {left : Text}
    (hleft : ∀ c ∈ left, p c = true) (right : Text)
    (hright : ∀ c ∈ right.head?, p c = false) :
    (left ++ right).takeWhile p = left ∧ (left ++ right).dropWhile p = right := by
  rw [List.takeWhile_append_of_pos hleft, List.dropWhile_append_of_pos hleft]
  cases right with
  | nil =>
      exact ⟨List.append_nil left, rfl⟩
  | cons c rest =>
      have hc : p c = false := hright c rfl
      rw [List.takeWhile_cons_of_neg (by simp [hc]), List.append_nil,
        List.dropWhile_cons_of_neg (by simp [hc])]
      exact ⟨rfl, rfl⟩

theorem firstLine_append_of_not_mem {text : Text} (h : '\n' ∉ text) (after : Text) :
    firstLine (text ++ after) = dropReturn (text ++ after.takeWhile (· != '\n')) := by
  rw [firstLine, takeWhile_append_of_not_mem h]

theorem dropReturn_cons {c : Char} (hc : c ≠ '\r') (piece : Text) :
    dropReturn (c :: piece) = c :: dropReturn piece := by
  cases piece with
  | nil =>
      simp [dropReturn, hc]
  | cons d rest =>
      exact dropReturn_append [c] (List.cons_ne_nil d rest)

theorem lines_newline (text : Text) : lines ('\n' :: text) = [] :: lines text := by
  simp [lines, pieces, dropReturn]

theorem lines_cons {c : Char} (hfeed : c ≠ '\n') (hreturn : c ≠ '\r') (text : Text) :
    lines (c :: text) = (lines text).modifyHead (c :: ·) := by
  rw [lines, lines, pieces, if_neg hfeed]
  cases hpieces : pieces text with
  | nil =>
      exact absurd hpieces (pieces_ne_nil text)
  | cons first others =>
      simp only [List.map_cons, List.modifyHead_cons, dropReturn_cons hreturn]

theorem head?_pieces (text : Text) :
    (pieces text).head? = some (text.takeWhile (· != '\n')) := by
  induction text with
  | nil =>
      rfl
  | cons c rest ih =>
      by_cases hc : c = '\n'
      · simp [pieces, hc]
      · rw [pieces, if_neg hc]
        cases hpieces : pieces rest with
        | nil =>
            exact absurd hpieces (pieces_ne_nil rest)
        | cons first others =>
            rw [hpieces] at ih
            have hfirst : first = rest.takeWhile (· != '\n') := by
              simpa using ih
            simp [hc, hfirst]

theorem head?_lines (text : Text) : (lines text).head? = some (firstLine text) := by
  rw [lines, List.head?_map, head?_pieces]
  rfl

theorem isPrefix_firstLine (text : Text) : firstLine text <+: text := by
  rw [firstLine, dropReturn]
  split
  · exact (List.dropLast_prefix _).trans (List.takeWhile_prefix _)
  · exact List.takeWhile_prefix _

theorem not_mem_takeWhile_bne (sign : Char) (text : Text) :
    sign ∉ text.takeWhile (· != sign) := by
  intro hmem
  have hne := List.mem_takeWhile_imp hmem
  simp at hne

theorem newline_not_mem_firstLine (text : Text) : '\n' ∉ firstLine text := by
  intro hmem
  apply not_mem_takeWhile_bne '\n' text
  rw [firstLine, dropReturn] at hmem
  split at hmem
  · exact (List.dropLast_sublist _).subset hmem
  · exact hmem

theorem newline_not_mem_take {text : Text} {index : Nat}
    (h : index ≤ (firstLine text).length) : '\n' ∉ text.take index := by
  rcases isPrefix_firstLine text with ⟨rest, hrest⟩
  intro hmem
  rw [← hrest, List.take_append_of_le_length h] at hmem
  exact newline_not_mem_firstLine text (List.mem_of_mem_take hmem)

/-!
# The line around a place
-/

/-- Whether a place stands between the carriage return of a line ending and what
ends the line: a line feed or the end of the text. -/
def SplitsEnding (before after : Text) : Prop :=
  before.getLast? = some '\r' ∧ (after = [] ∨ after.head? = some '\n')

instance (before after : Text) : Decidable (SplitsEnding before after) :=
  inferInstanceAs (Decidable (_ ∧ _))

theorem getLast?_lastLine {text : Text} (h : lastLine text ≠ []) :
    (lastLine text).getLast? = text.getLast? := by
  have happend := congrArg List.getLast? (endedLines_append_lastLine text)
  rw [List.getLast?_append_of_ne_nil _ h] at happend
  exact happend

theorem lastLine_isPrefix_firstLine {before after : Text}
    (h : ¬ SplitsEnding before after) :
    ∃ rest, firstLine (lastLine before ++ after) = lastLine before ++ rest := by
  rw [firstLine_append_of_not_mem (newline_not_mem_lastLine before)]
  by_cases hrest : after.takeWhile (· != '\n') = []
  · have hend : after = [] ∨ after.head? = some '\n' := by
      cases after with
      | nil =>
          exact Or.inl rfl
      | cons c rest =>
          right
          by_cases hc : c = '\n'
          · rw [hc]
            rfl
          · simp [hc] at hrest
    have hreturn : (lastLine before).getLast? ≠ some '\r' := by
      intro hlast
      have hne : lastLine before ≠ [] := by
        intro hnil
        rw [hnil] at hlast
        cases hlast
      rw [getLast?_lastLine hne] at hlast
      exact h ⟨hlast, hend⟩
    refine ⟨[], ?_⟩
    rw [hrest, List.append_nil, dropReturn_of_getLast?_ne hreturn]
  · exact ⟨_, dropReturn_append (lastLine before) hrest⟩

end Text

namespace Position

open Text

/-!
# Decoding a position line by line
-/

theorem index_line_zero (text : Text) (column : Nat) :
    index text ⟨0, column⟩ = columnIndex (firstLine text) column := by
  cases text <;> rfl

theorem index_wholeLines_append {lines : Text} (h : WholeLines lines) (text : Text)
    (line column : Nat) :
    index (lines ++ text) ⟨lines.count '\n' + line, column⟩ =
      lines.length + index text ⟨line, column⟩ := by
  induction lines with
  | nil =>
      simp
  | cons c rest ih =>
      have hrest := ih h.tail
      by_cases hc : c = '\n'
      · have hline : (c :: rest).count '\n' + line = rest.count '\n' + line + 1 := by
          rw [hc, List.count_cons_self]
          omega
        rw [hline, List.cons_append, index, if_pos hc, hrest, List.length_cons]
        omega
      · have hlater : ∃ n, rest.count '\n' = n + 1 :=
          Nat.exists_eq_succ_of_ne_zero (Nat.ne_of_gt (h.count_pos hc))
        rcases hlater with ⟨n, hn⟩
        have hline : (c :: rest).count '\n' + line = n + line + 1 := by
          rw [List.count_cons_of_ne hc, hn]
          omega
        have hsame : n + line + 1 = rest.count '\n' + line := by
          omega
        rw [hline, List.cons_append, index, if_neg hc, hsame, hrest, List.length_cons]
        omega

/-!
# Decoding inverts encoding
-/

theorem ofIndex_length (before after : Text) :
    ofIndex (before ++ after) before.length =
      ⟨before.count '\n', columns (lastLine before)⟩ := by
  have hcolumns : columns (before.reverse.takeWhile (· != '\n')) =
      columns (lastLine before) := by
    rw [lastLine, List.rtakeWhile, columns_reverse]
  simp [ofIndex, hcolumns]

theorem index_ofIndex_eq (before after : Text) :
    index (before ++ after) (ofIndex (before ++ after) before.length) =
      (endedLines before).length +
        columnIndex (firstLine (lastLine before ++ after)) (columns (lastLine before)) := by
  have hlines : before ++ after = endedLines before ++ (lastLine before ++ after) := by
    rw [← List.append_assoc, endedLines_append_lastLine]
  rw [ofIndex_length, ← count_endedLines, hlines]
  calc
    index (endedLines before ++ (lastLine before ++ after))
        ⟨(endedLines before).count '\n' + 0, columns (lastLine before)⟩
      = (endedLines before).length +
          index (lastLine before ++ after) ⟨0, columns (lastLine before)⟩ :=
        index_wholeLines_append (wholeLines_endedLines before) _ 0 _
    _ = (endedLines before).length +
          columnIndex (firstLine (lastLine before ++ after))
            (columns (lastLine before)) := by
        rw [index_line_zero]

/-- Decoding the position of a place leads back to the place. -/
theorem index_ofIndex_length {before after : Text} (h : ¬ SplitsEnding before after) :
    index (before ++ after) (ofIndex (before ++ after) before.length) =
      before.length := by
  rcases lastLine_isPrefix_firstLine h with ⟨rest, hrest⟩
  rw [index_ofIndex_eq, hrest, columnIndex_columns, ← List.length_append,
    endedLines_append_lastLine]

end Position

/-!
# Places as byte offsets

A number of bytes is the offset of a place if it cuts no character in two.
-/

namespace Text

def byteIndex : Text → Nat → Nat
  | [], _ => 0
  | c :: rest, offset =>
      if c.utf8Size ≤ offset then 1 + byteIndex rest (offset - c.utf8Size) else 0

def upTo (text : Text) (offset : Nat) : Text :=
  text.take (byteIndex text offset)

def beyond (text : Text) (offset : Nat) : Text :=
  text.drop (byteIndex text offset)

def IsBoundary (text : Text) (offset : Nat) : Prop :=
  bytes (upTo text offset) = offset

instance (text : Text) (offset : Nat) : Decidable (IsBoundary text offset) :=
  inferInstanceAs (Decidable (_ = _))

theorem byteIndex_bytes (before after : Text) :
    byteIndex (before ++ after) (bytes before) = before.length := by
  induction before with
  | nil =>
      cases after with
      | nil =>
          rfl
      | cons c rest =>
          rw [List.nil_append, byteIndex, bytes_nil, if_neg]
          · rfl
          · have hsize := Char.utf8Size_pos c
            omega
  | cons c rest ih =>
      rw [List.cons_append, byteIndex, bytes_cons, if_pos (Nat.le_add_right _ _),
        Nat.add_sub_cancel_left, ih, List.length_cons, Nat.add_comm]

theorem isBoundary_iff {text : Text} {offset : Nat} :
    IsBoundary text offset ↔
      ∃ before after, text = before ++ after ∧ bytes before = offset := by
  constructor
  · intro h
    exact ⟨upTo text offset, beyond text offset, (List.take_append_drop _ _).symm, h⟩
  · rintro ⟨before, after, rfl, rfl⟩
    rw [IsBoundary, upTo, byteIndex_bytes, List.take_left]

theorem byteIndex_le_length (text : Text) (offset : Nat) :
    byteIndex text offset ≤ text.length := by
  induction text generalizing offset with
  | nil =>
      exact Nat.le_refl 0
  | cons c rest ih =>
      rw [byteIndex]
      split
      · have h := ih (offset - c.utf8Size)
        rw [List.length_cons]
        omega
      · exact Nat.zero_le _

theorem byteIndex_mono (text : Text) {first last : Nat} (h : first ≤ last) :
    byteIndex text first ≤ byteIndex text last := by
  induction text generalizing first last with
  | nil =>
      exact Nat.le_refl 0
  | cons c rest ih =>
      rw [byteIndex, byteIndex]
      by_cases hfirst : c.utf8Size ≤ first
      · have hrest := ih (Nat.sub_le_sub_right h c.utf8Size)
        rw [if_pos hfirst, if_pos (Nat.le_trans hfirst h)]
        omega
      · rw [if_neg hfirst]
        exact Nat.zero_le _

end Text

/-- The position of the place at a byte offset. -/
def Position.ofOffset (text : Text) (offset : Nat) : Position :=
  Position.ofIndex text (Text.byteIndex text offset)

theorem Position.index_ofOffset {text : Text} {offset : Nat}
    (h : ¬ Text.SplitsEnding (text.upTo offset) (text.beyond offset)) :
    Position.index text (Position.ofOffset text offset) = Text.byteIndex text offset := by
  have hlength : (text.upTo offset).length = Text.byteIndex text offset := by
    rw [Text.upTo, List.length_take]
    exact Nat.min_eq_left (Text.byteIndex_le_length text offset)
  have hplace := Position.index_ofIndex_length h
  rw [hlength, Text.upTo, Text.beyond, List.take_append_drop] at hplace
  exact hplace

end ScriptAssist
