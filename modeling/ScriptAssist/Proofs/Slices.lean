import ScriptAssist.Proofs.Splicing

/-!
# Cutting at byte offsets

A text can be cut at a byte offset only if the offset lies in the text and
divides none of its characters.  A position can be found on the bytes of a
text, line feed by line feed, and every cut on the way is such a one; what is
found is the offset of the position, and positions in order have offsets in
order.  So a change can always be made on the bytes, and what stands on a line
before a caret is what the bytes between two offsets hold.
-/

namespace ScriptAssist
namespace Text

/-!
# Parts between two offsets
-/

/-- Whether two byte offsets are the ends of a part of a text. -/
def Encloses (text : Text) (first last : Nat) : Prop :=
  first ≤ last ∧ text.IsBoundary first ∧ text.IsBoundary last

instance (text : Text) (first last : Nat) : Decidable (text.Encloses first last) :=
  inferInstanceAs (Decidable (_ ∧ _))

def slice? (text : Text) (first last : Nat) : Option Text :=
  if text.Encloses first last then some ((text.upTo last).beyond first) else none

def replace? (text : Text) (first last : Nat) (replacement : Text) : Option Text :=
  if text.Encloses first last then
    some (text.upTo first ++ replacement ++ text.beyond last)
  else
    none

theorem upTo_bytes (before after : Text) :
    (before ++ after).upTo (bytes before) = before := by
  rw [upTo, byteIndex_bytes, List.take_left]

theorem beyond_bytes (before after : Text) :
    (before ++ after).beyond (bytes before) = after := by
  rw [beyond, byteIndex_bytes, List.drop_left]

theorem bytes_le_of_isPrefix {first last : Text} (h : first <+: last) :
    bytes first ≤ bytes last := by
  rcases h with ⟨rest, rfl⟩
  rw [bytes_append]
  exact Nat.le_add_right _ _

theorem IsBoundary.le_bytes {text : Text} {offset : Nat} (h : text.IsBoundary offset) :
    offset ≤ bytes text := by
  rcases isBoundary_iff.mp h with ⟨before, after, rfl, rfl⟩
  exact bytes_le_of_isPrefix (List.prefix_append _ _)

theorem bytes_pos {text : Text} (h : text ≠ []) : 0 < bytes text := by
  cases text with
  | nil =>
      exact absurd rfl h
  | cons c rest =>
      exact Nat.add_pos_left (Char.utf8Size_pos c) _

theorem isPrefix_of_bytes_le {text first last : Text} (hfirst : first <+: text)
    (hlast : last <+: text) (h : bytes first ≤ bytes last) : first <+: last := by
  rcases List.prefix_or_prefix_of_prefix hfirst hlast with hprefix | ⟨rest, rfl⟩
  · exact hprefix
  -- the longer text has no more bytes, so nothing can be left of it
  · by_cases hrest : rest = []
    · exact ⟨[], by rw [hrest, List.append_nil, List.append_nil]⟩
    · have hpos := bytes_pos hrest
      rw [bytes_append] at h
      omega

theorem encloses_iff {text : Text} {first last : Nat} :
    text.Encloses first last ↔
      ∃ before part after, text = before ++ part ++ after ∧
        bytes before = first ∧ bytes (before ++ part) = last := by
  constructor
  · rintro ⟨hle, hfirst, hlast⟩
    rcases isBoundary_iff.mp hfirst with ⟨before, rest, hbefore, rfl⟩
    rcases isBoundary_iff.mp hlast with ⟨upper, after, hupper, rfl⟩
    have hprefix : before <+: upper :=
      isPrefix_of_bytes_le ⟨rest, hbefore.symm⟩ ⟨after, hupper.symm⟩ hle
    rcases hprefix with ⟨part, rfl⟩
    exact ⟨before, part, after, hupper, rfl, rfl⟩
  · rintro ⟨before, part, after, rfl, rfl, rfl⟩
    refine ⟨bytes_le_of_isPrefix (List.prefix_append _ _), ?_, ?_⟩
    · rw [isBoundary_iff]
      exact ⟨before, part ++ after, List.append_assoc _ _ _, rfl⟩
    · rw [isBoundary_iff]
      exact ⟨before ++ part, after, rfl, rfl⟩

theorem slice?_eq_some_iff {text part : Text} {first last : Nat} :
    text.slice? first last = some part ↔
      ∃ before after, text = before ++ part ++ after ∧
        bytes before = first ∧ bytes (before ++ part) = last := by
  constructor
  · intro h
    rw [slice?] at h
    split at h
    · next hencloses =>
        rcases encloses_iff.mp hencloses with ⟨before, other, after, rfl, rfl, rfl⟩
        rw [upTo_bytes, beyond_bytes, Option.some.injEq] at h
        exact ⟨before, after, by rw [h], rfl, by rw [h]⟩
    · cases h
  · rintro ⟨before, after, rfl, rfl, rfl⟩
    rw [slice?, if_pos (encloses_iff.mpr ⟨before, part, after, rfl, rfl, rfl⟩), upTo_bytes,
      beyond_bytes]

-- an offset inside of a character or beyond the text is no end of a part
example :
    slice? ['a', 'é'] 1 3 = some ['é'] ∧ slice? ['a', 'é'] 1 2 = none ∧
      slice? ['a', 'é'] 1 4 = none := by
  decide

theorem slice?_rest (before rest : Text) :
    (before ++ rest).slice? (bytes before) (bytes (before ++ rest)) = some rest :=
  slice?_eq_some_iff.mpr ⟨before, [], (List.append_nil _).symm, rfl, rfl⟩

theorem take_columnIndex (text : Text) (column : Nat) :
    text.take (columnIndex (firstLine text) column) =
      beforeColumn (firstLine text) column := by
  rcases isPrefix_firstLine text with ⟨rest, hrest⟩
  have happend : (firstLine text ++ rest).take (columnIndex (firstLine text) column) =
      beforeColumn (firstLine text) column :=
    List.take_append_of_le_length (columnIndex_le_length _ _)
  rwa [hrest] at happend

end Text

/-!
# Offsets in the order of their positions
-/

namespace Position

open Text

instance : Min Position :=
  minOfLe

instance : Max Position :=
  maxOfLe

theorem le_total (first second : Position) : first ≤ second ∨ second ≤ first := by
  rcases Nat.lt_trichotomy first.line second.line with hlt | heq | hgt
  · exact Or.inl (Or.inl hlt)
  · rcases Nat.le_total first.character second.character with hle | hle
    · exact Or.inl (Or.inr ⟨heq, hle⟩)
    · exact Or.inr (Or.inr ⟨heq.symm, hle⟩)
  · exact Or.inr (Or.inl hgt)

theorem min_max_of_mono {measure : Position → Nat}
    (hmono : ∀ {first second}, first ≤ second → measure first ≤ measure second)
    (first second : Position) :
    measure (min first second) = min (measure first) (measure second) ∧
      measure (max first second) = max (measure first) (measure second) := by
  by_cases hle : first ≤ second
  · rw [show min first second = first from if_pos hle,
      show max first second = second from if_pos hle,
      Nat.min_eq_left (hmono hle), Nat.max_eq_right (hmono hle)]
    exact ⟨rfl, rfl⟩
  · have hge := (le_total first second).resolve_left hle
    rw [show min first second = second from if_neg hle,
      show max first second = first from if_neg hle,
      Nat.min_eq_right (hmono hge), Nat.max_eq_left (hmono hge)]
    exact ⟨rfl, rfl⟩

theorem isBoundary_offset (text : Text) (position : Position) :
    text.IsBoundary (offset text position) :=
  isBoundary_iff.mpr ⟨_, _, (List.take_append_drop _ _).symm, rfl⟩

theorem byteIndex_offset (text : Text) (position : Position) :
    byteIndex text (offset text position) = index text position := by
  have hbefore := byteIndex_bytes (text.take (index text position))
    (text.drop (index text position))
  rw [List.take_append_drop, List.length_take,
    Nat.min_eq_left (index_le_length text position)] at hbefore
  exact hbefore

theorem upTo_offset (text : Text) (position : Position) :
    text.upTo (offset text position) = text.take (index text position) := by
  rw [upTo, byteIndex_offset]

theorem beyond_offset (text : Text) (position : Position) :
    text.beyond (offset text position) = text.drop (index text position) := by
  rw [beyond, byteIndex_offset]

theorem offset_mono (text : Text) {first second : Position} (h : first ≤ second) :
    offset text first ≤ offset text second :=
  bytes_le_of_isPrefix (List.take_prefix_take_left (index_mono text h))

/-!
# Positions found on the bytes of a text
-/

/-- The offset of a column in the line that comes a number of lines after the one at an
offset.  Line feeds are searched for in what is left of the text; there is no result
if the text cannot be cut where the search needs it. -/
def seekFrom? (text : Text) (column : Nat) : Nat → Nat → Option Nat
  | 0, start => do
      let rest ← text.slice? start (bytes text)
      let line ← text.slice? start (start + bytes (rest.takeWhile (· != '\n')))
      return start + bytes (beforeColumn (dropReturn line) column)
  | lines + 1, start => do
      let rest ← text.slice? start (bytes text)
      if '\n' ∈ rest then
        seekFrom? text column lines (start + bytes (rest.takeWhile (· != '\n')) + 1)
      else
        return bytes text

def seek? (text : Text) (position : Position) : Option Nat :=
  seekFrom? text position.character position.line 0

theorem offset_of_count_lt {text : Text} {position : Position}
    (h : text.count '\n' < position.line) : offset text position = bytes text := by
  have hindex : index text position = text.length := by
    induction text generalizing position with
    | nil =>
        rfl
    | cons c rest ih =>
        rcases position with ⟨line, column⟩
        cases line with
        | zero =>
            cases h
        | succ line =>
            -- a line feed takes one line off, and there are still too few in the rest
            by_cases hc : c = '\n'
            · rw [hc, List.count_cons_self] at h
              rw [index, if_pos hc, ih (Nat.lt_of_succ_lt_succ h), List.length_cons,
                Nat.add_comm]
            · rw [List.count_cons_of_ne hc] at h
              rw [index, if_neg hc, ih h, List.length_cons, Nat.add_comm]
  rw [offset, hindex, List.take_length]

theorem offset_line_zero (text : Text) (column : Nat) :
    offset text ⟨0, column⟩ = bytes (beforeColumn (firstLine text) column) := by
  rw [offset, index_line_zero, take_columnIndex]

theorem offset_wholeLines_append {above : Text} (h : WholeLines above) (below : Text)
    (line column : Nat) :
    offset (above ++ below) ⟨above.count '\n' + line, column⟩ =
      bytes above + offset below ⟨line, column⟩ := by
  rw [offset, index_wholeLines_append h, List.take_length_add_append, bytes_append]
  rfl

theorem offset_newline {line : Text} (hline : '\n' ∉ line) (rest : Text)
    (lines column : Nat) :
    offset (line ++ '\n' :: rest) ⟨lines + 1, column⟩ =
      bytes (line ++ ['\n']) + offset rest ⟨lines, column⟩ := by
  have hwhole : WholeLines (line ++ ['\n']) := Or.inr List.getLast?_concat
  have hcount : (line ++ ['\n']).count '\n' = 1 := by
    rw [List.count_append, List.count_eq_zero.mpr hline]
    rfl
  have hoffset := offset_wholeLines_append hwhole rest lines column
  rw [hcount, Nat.add_comm 1, List.append_assoc, List.singleton_append] at hoffset
  exact hoffset

theorem seekFrom?_newline {line : Text} (hline : '\n' ∉ line) (above rest : Text)
    (lines column : Nat) :
    seekFrom? (above ++ (line ++ '\n' :: rest)) column (lines + 1) (bytes above) =
      seekFrom? (above ++ (line ++ '\n' :: rest)) column lines
        (bytes (above ++ (line ++ ['\n']))) := by
  have hfeed : '\n' ∈ line ++ '\n' :: rest :=
    List.mem_append_right line List.mem_cons_self
  have hfirst : (line ++ '\n' :: rest).takeWhile (· != '\n') = line := by
    rw [takeWhile_append_of_not_mem hline]
    exact List.append_nil line
  have hsize : bytes above + bytes line + 1 = bytes (above ++ (line ++ ['\n'])) := by
    rw [bytes_append, bytes_append, Nat.add_assoc]
    rfl
  rw [seekFrom?, slice?_rest]
  simp only [Option.bind_eq_bind, Option.bind_some, if_pos hfeed, hfirst, hsize]

theorem seekFrom?_bytes (above below : Text) (lines column : Nat) :
    seekFrom? (above ++ below) column lines (bytes above) =
      some (bytes above + offset below ⟨lines, column⟩) := by
  -- each step moves one line from the part to be searched to the part above it
  induction lines generalizing above below with
  | zero =>
      have hline : (above ++ below).slice? (bytes above)
          (bytes above + bytes (below.takeWhile (· != '\n'))) =
            some (below.takeWhile (· != '\n')) := by
        rw [slice?_eq_some_iff]
        refine ⟨above, below.dropWhile (· != '\n'), ?_, rfl, bytes_append _ _⟩
        rw [List.append_assoc, List.takeWhile_append_dropWhile]
      rw [seekFrom?, slice?_rest, offset_line_zero]
      simp only [Option.bind_eq_bind, Option.bind_some, hline]
      rfl
  | succ lines ih =>
      by_cases hfeed : '\n' ∈ below
      · rcases List.eq_append_cons_of_mem hfeed with ⟨line, rest, rfl, hline⟩
        have hnext := ih (above ++ (line ++ ['\n'])) rest
        rw [List.append_assoc, List.append_assoc line, List.singleton_append] at hnext
        rw [seekFrom?_newline hline, hnext, offset_newline hline, bytes_append,
          Nat.add_assoc]
      · have hcount : below.count '\n' < lines + 1 := by
          rw [List.count_eq_zero.mpr hfeed]
          exact Nat.succ_pos lines
        rw [seekFrom?, slice?_rest]
        simp only [Option.bind_eq_bind, Option.bind_some, if_neg hfeed]
        rw [offset_of_count_lt hcount, bytes_append]
        rfl

theorem seek?_eq_offset (text : Text) (position : Position) :
    position.seek? text = some (offset text position) := by
  have hseek := seekFrom?_bytes [] text position.line position.character
  rw [List.nil_append, bytes_nil, Nat.zero_add] at hseek
  exact hseek

end Position

/-!
# Changes on the bytes of a text
-/

namespace Change

open Text Position

def applyOnBytes? (text : Text) (change : Change) : Option Text :=
  match change.range with
  | none => some change.text
  | some range => do
      let first ← range.start.seek? text
      let second ← range.stop.seek? text
      text.replace? (min first second) (max first second) change.text

theorem apply_eq_upTo_beyond (text : Text) (start stop : Position) (replacement : Text) :
    apply text ⟨some ⟨start, stop⟩, replacement⟩ =
      text.upTo (offset text (min start stop)) ++ replacement ++
        text.beyond (offset text (max start stop)) := by
  have hindex := min_max_of_mono (index_mono text) start stop
  rw [upTo_offset, beyond_offset, hindex.1, hindex.2]
  rfl

theorem replace?_eq_apply (text : Text) (start stop : Position) (replacement : Text) :
    text.replace? (min (offset text start) (offset text stop))
        (max (offset text start) (offset text stop)) replacement =
      some (apply text ⟨some ⟨start, stop⟩, replacement⟩) := by
  have hoffset := min_max_of_mono (offset_mono text) start stop
  have hencloses : text.Encloses (offset text (min start stop))
      (offset text (max start stop)) := by
    refine ⟨?_, isBoundary_offset text _, isBoundary_offset text _⟩
    rw [hoffset.1, hoffset.2]
    exact Nat.le_trans (Nat.min_le_left _ _) (Nat.le_max_left _ _)
  rw [← hoffset.1, ← hoffset.2, replace?, if_pos hencloses, apply_eq_upTo_beyond]

theorem applyOnBytes?_eq_apply (text : Text) (change : Change) :
    change.applyOnBytes? text = some (change.apply text) := by
  rcases change with ⟨range, replacement⟩
  cases range with
  | none =>
      rfl
  | some range =>
      simp only [applyOnBytes?, seek?_eq_offset, Option.bind_eq_bind, Option.bind_some]
      exact replace?_eq_apply text range.start range.stop replacement

theorem apply_swap (text : Text) (start stop : Position) (replacement : Text) :
    apply text ⟨some ⟨stop, start⟩, replacement⟩ =
      apply text ⟨some ⟨start, stop⟩, replacement⟩ := by
  simp only [apply, Nat.min_comm, Nat.max_comm]

/-- Every position is found on the bytes of a text, at an offset where the text can be
cut, and the order of positions is kept.  So every change can be made on the bytes; it
replaces what stands between the lesser and the greater end of its range, in whichever
order they are given. -/
theorem apply_cuts_at_offsets (text : Text) :
    (∀ position : Position, position.seek? text = some (offset text position) ∧
        text.IsBoundary (offset text position) ∧ offset text position ≤ bytes text) ∧
      (∀ first second : Position, first ≤ second →
        offset text first ≤ offset text second) ∧
      (∀ change : Change, change.applyOnBytes? text = some (change.apply text)) ∧
      ∀ (start stop : Position) (replacement : Text),
        apply text ⟨some ⟨start, stop⟩, replacement⟩ =
            text.upTo (offset text (min start stop)) ++ replacement ++
              text.beyond (offset text (max start stop)) ∧
          apply text ⟨some ⟨stop, start⟩, replacement⟩ =
            apply text ⟨some ⟨start, stop⟩, replacement⟩ := by
  refine ⟨?_, ?_, applyOnBytes?_eq_apply text, ?_⟩
  · intro position
    have hboundary := isBoundary_offset text position
    exact ⟨seek?_eq_offset text position, hboundary, hboundary.le_bytes⟩
  · intro first second hle
    exact offset_mono text hle
  · intro start stop replacement
    exact ⟨apply_eq_upTo_beyond text start stop replacement,
      apply_swap text start stop replacement⟩

end Change

/-!
# The text before a caret
-/

namespace Position

open Text

theorem offset_on_line {above : Text} (h : WholeLines above) (below : Text)
    (column : Nat) :
    offset (above ++ below) ⟨above.count '\n', column⟩ =
      bytes (above ++ below.take (columnIndex (firstLine below) column)) := by
  rw [offset, index_on_line h, List.take_length_add_append]

theorem textBefore?_on_line {above : Text} (h : WholeLines above) (below : Text)
    (column : Nat) :
    textBefore? (above ++ below) ⟨above.count '\n', column⟩ =
      some (below.take (columnIndex (firstLine below) column)) := by
  rw [textBefore?, h.getElem?_lines, take_columnIndex]
  rfl

theorem textBefore?_eq_none_iff (text : Text) (position : Position) :
    position.textBefore? text = none ↔ text.count '\n' < position.line := by
  rw [textBefore?, Option.map_eq_none_iff, List.getElem?_eq_none_iff, length_lines]
  exact Iff.rfl

/-- There is no text before a position beyond the last line, which denotes the end of
the text.  Before any other position, it is what stands between the offset of column
zero of its line and its own offset. -/
theorem textBefore?_between_offsets (text : Text) (position : Position) :
    (position.textBefore? text = none ↔ text.count '\n' < position.line) ∧
      (text.count '\n' < position.line → offset text position = bytes text) ∧
      (position.line ≤ text.count '\n' →
        position.textBefore? text =
          text.slice? (offset text ⟨position.line, 0⟩) (offset text position)) := by
  refine ⟨textBefore?_eq_none_iff text position, ?_, ?_⟩
  · intro hbeyond
    exact offset_of_count_lt hbeyond
  · intro hline
    rcases position with ⟨line, column⟩
    rcases exists_wholeLines hline with ⟨above, below, rfl, habove, rfl⟩
    have hstart : offset (above ++ below) ⟨above.count '\n', 0⟩ = bytes above := by
      rw [offset_on_line habove, columnIndex_zero, List.take_zero, List.append_nil]
    rw [textBefore?_on_line habove, eq_comm, slice?_eq_some_iff]
    refine ⟨above, below.drop (columnIndex (firstLine below) column), ?_, hstart.symm,
      (offset_on_line habove below column).symm⟩
    rw [List.append_assoc, List.take_append_drop]

end Position
end ScriptAssist
