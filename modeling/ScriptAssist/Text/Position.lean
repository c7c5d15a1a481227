import ScriptAssist.Text.Line

/-!
# Positions and changes

A position names a place in a text by line and column, both counted from zero,
the column in UTF-16 code units.  Every position denotes a place: a column
beyond the line denotes the end of the line, a line beyond the text denotes
the end of the text, and a column between the two halves of one character
denotes the place after it.

Places are counted in characters (`Position.index`), so that a text is cut by
`List.take` and `List.drop`; the byte offset of a place is the measure of what
stands before it.
-/

namespace ScriptAssist

structure Position where
  line : Nat
  character : Nat
  deriving DecidableEq, Repr

structure Range where
  start : Position
  stop : Position
  deriving DecidableEq, Repr

namespace Text

def columnIndex : Text → Nat → Nat
  | [], _ => 0
  | _ :: _, 0 => 0
  | c :: rest, column + 1 => 1 + columnIndex rest (column + 1 - unitsOf c)

theorem columnIndex_le_length (line : Text) (column : Nat) :
    columnIndex line column ≤ line.length := by
  induction line generalizing column with
  | nil =>
      simp [columnIndex]
  | cons c rest ih =>
      cases column with
      | zero =>
          simp [columnIndex]
      | succ column =>
          have h := ih (column + 1 - unitsOf c)
          simp only [columnIndex, List.length_cons]
          omega

def beforeColumn (line : Text) (column : Nat) : Text :=
  line.take (columnIndex line column)

end Text

namespace Position

open Text

/-- How many characters of a text stand before a position. -/
def index : Text → Position → Nat
  | [], _ => 0
  | c :: rest, ⟨0, column⟩ => columnIndex (firstLine (c :: rest)) column
  | c :: rest, ⟨line + 1, column⟩ =>
      1 + index rest (if c = '\n' then ⟨line, column⟩ else ⟨line + 1, column⟩)

theorem index_le_length (text : Text) (position : Position) :
    index text position ≤ text.length := by
  induction text generalizing position with
  | nil =>
      simp [index]
  | cons c rest ih =>
      obtain ⟨line, column⟩ := position
      cases line with
      | zero =>
          exact Nat.le_trans (columnIndex_le_length _ _)
            (length_firstLine_le (c :: rest))
      | succ line =>
          have h := ih (if c = '\n' then ⟨line, column⟩ else ⟨line + 1, column⟩)
          simp only [index, List.length_cons]
          omega

/-- How many bytes of a text stand before a position. -/
def offset (text : Text) (position : Position) : Nat :=
  bytes (text.take (index text position))

def ofIndex (text : Text) (index : Nat) : Position :=
  let before := text.take index
  { line := before.count '\n'
    character := columns (before.reverse.takeWhile (· != '\n')) }

def textBefore? (text : Text) (position : Position) : Option Text :=
  (lines text)[position.line]?.map (beforeColumn · position.character)

end Position
/-!
# Changes

An editor reports an edit as a change: a new text for a range of the current
text, or a new text for the whole of it.  The changes of one report are
applied in order, each to the text that the earlier ones left.
-/

/-- A replacement of a range, or of the whole text when no range is given. -/
structure Change where
  range : Option Range
  text : Text
  deriving DecidableEq, Repr

namespace Change

/-- The text after a change. The ends of the range may come in either order. -/
def apply (text : Text) (change : Change) : Text :=
  match change.range with
  | none => change.text
  | some range =>
      let first := range.start.index text
      let second := range.stop.index text
      text.take (min first second) ++ change.text ++ text.drop (max first second)

def applyAll (text : Text) (changes : List Change) : Text :=
  changes.foldl apply text

@[simp] theorem applyAll_nil (text : Text) : applyAll text [] = text :=
  rfl

@[simp] theorem applyAll_cons (text : Text) (change : Change) (rest : List Change) :
    applyAll text (change :: rest) = applyAll (apply text change) rest :=
  rfl

end Change
end ScriptAssist
