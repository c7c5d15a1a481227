import ScriptAssist.Text.Basic

/-!
# Lines

A line ends at a line feed; a carriage return right before the line feed, or
right before the end of the text, belongs to the line ending and not to the
line.  A text with `n` line feeds therefore has `n + 1` lines, the last of
which may be empty.
-/

namespace ScriptAssist
namespace Text

/-!
# Cutting at line feeds

The pieces of a text are the stretches between its line feeds; a line is a piece
without the one carriage return that it may end with.
-/

def pieces : Text → List Text
  | [] => [[]]
  | c :: rest =>
      if c = '\n' then
        [] :: pieces rest
      else
        match pieces rest with
        | [] => [[c]]
        | first :: others => (c :: first) :: others

def dropReturn (piece : Text) : Text :=
  if piece.getLast? = some '\r' then piece.dropLast else piece

/-- The lines of a text, without their line endings. -/
def lines (text : Text) : List Text :=
  (pieces text).map dropReturn

def firstLine (text : Text) : Text :=
  dropReturn (text.takeWhile (· != '\n'))

theorem length_dropReturn_le (piece : Text) :
    (dropReturn piece).length ≤ piece.length := by
  rw [dropReturn]
  split
  · rw [List.length_dropLast]
    omega
  · exact Nat.le_refl _

theorem length_firstLine_le (text : Text) :
    (firstLine text).length ≤ text.length :=
  Nat.le_trans (length_dropReturn_le _) (List.takeWhile_sublist _).length_le

/-!
# How many lines there are
-/

theorem pieces_ne_nil (text : Text) : pieces text ≠ [] := by
  cases text with
  | nil =>
      simp [pieces]
  | cons c rest =>
      rw [pieces]
      split
      · simp
      · split <;> simp

theorem length_pieces (text : Text) :
    (pieces text).length = text.count '\n' + 1 := by
  induction text with
  | nil =>
      rfl
  | cons c rest ih =>
      by_cases hc : c = '\n'
      · simp [pieces, hc, ih]
      · rw [pieces, if_neg hc, List.count_cons_of_ne hc]
        cases h : pieces rest with
        | nil => exact absurd h (pieces_ne_nil rest)
        | cons first others => simpa [h] using ih

@[simp] theorem length_lines (text : Text) :
    (lines text).length = text.count '\n' + 1 := by
  simp [lines, length_pieces]

theorem pieces_append_newline (before after : Text) :
    pieces (before ++ '\n' :: after) = pieces before ++ pieces after := by
  induction before with
  | nil =>
      simp [pieces]
  | cons c rest ih =>
      by_cases hc : c = '\n'
      · simp [pieces, hc, ih]
      · rw [List.cons_append, pieces, if_neg hc, ih, pieces, if_neg hc]
        cases h : pieces rest with
        | nil => exact absurd h (pieces_ne_nil rest)
        | cons first others => rfl

end Text
end ScriptAssist
