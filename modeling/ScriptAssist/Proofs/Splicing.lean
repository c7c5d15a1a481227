import ScriptAssist.Text.Position
import ScriptAssist.Proofs.Places

/-!
# Texts put together from parts

A change keeps the part of a text before its range and the part after it, and
puts its own text in between.  This module says what that means for lines: the
lines that end in the first part and those that start in the last part stay as
they are, and how many there are follows from the lines of the range.
-/

namespace ScriptAssist
namespace Text

/-!
# Lines of joined texts
-/

theorem lines_append_newline (before after : Text) :
    lines (before ++ '\n' :: after) = lines before ++ lines after := by
  rw [lines, pieces_append_newline, List.map_append]
  rfl

theorem length_dropLast_lines (text : Text) :
    (lines text).dropLast.length = text.count '\n' := by
  rw [List.length_dropLast, length_lines, Nat.add_sub_cancel]

theorem lines_eq_cons (text : Text) :
    lines text = firstLine text :: (lines text).tail := by
  have hhead := head?_lines text
  cases hlines : lines text with
  | nil =>
      rw [hlines] at hhead
      cases hhead
  | cons first others =>
      rw [hlines, List.head?_cons, Option.some.injEq] at hhead
      rw [hhead, List.tail_cons]

theorem WholeLines.lines_append {above : Text} (h : WholeLines above) (text : Text) :
    lines (above ++ text) = (lines above).dropLast ++ lines text := by
  rcases h with hnil | hlast
  · rw [hnil]
    rfl
  · rcases List.getLast?_eq_some_iff.mp hlast with ⟨body, rfl⟩
    have hbody : lines (body ++ ['\n']) = lines body ++ [[]] :=
      lines_append_newline body []
    rw [List.append_assoc, List.singleton_append, lines_append_newline, hbody,
      List.dropLast_concat]

theorem WholeLines.getElem?_lines {above : Text} (h : WholeLines above) (below : Text) :
    (lines (above ++ below))[above.count '\n']? = some (firstLine below) := by
  have habove := length_dropLast_lines above
  rw [h.lines_append, List.getElem?_append_right (Nat.le_of_eq habove), habove,
    Nat.sub_self, lines_eq_cons below]
  rfl

theorem pieces_append_of_not_mem {start : Text} (h : '\n' ∉ start) (text : Text) :
    pieces (start ++ text) = (pieces text).modifyHead (start ++ ·) := by
  induction start with
  | nil =>
      rw [List.nil_append]
      cases pieces text <;> rfl
  | cons c rest ih =>
      have hc : c ≠ '\n' := by
        intro heq
        exact h (heq ▸ List.mem_cons_self)
      rw [List.cons_append, pieces, if_neg hc,
        ih fun hmem => h (List.mem_cons_of_mem c hmem)]
      cases hpieces : pieces text with
      | nil =>
          exact absurd hpieces (pieces_ne_nil text)
      | cons first others =>
          rfl

theorem lines_append_of_not_mem {start : Text} (h : '\n' ∉ start) (text : Text) :
    lines (start ++ text) = firstLine (start ++ text) :: (lines text).tail := by
  rw [lines_eq_cons (start ++ text)]
  congr 1
  rw [lines, lines, pieces_append_of_not_mem h]
  cases pieces text <;> rfl

theorem lines_of_not_mem {text : Text} (h : '\n' ∉ text) :
    lines text = [firstLine text] := by
  have happend := lines_append_of_not_mem h []
  rw [List.append_nil] at happend
  exact happend

theorem firstLine_append {start : Text} (hfeed : '\n' ∉ start)
    (hreturn : start.getLast? ≠ some '\r') (text : Text) :
    firstLine (start ++ text) = start ++ firstLine text := by
  rw [firstLine_append_of_not_mem hfeed, firstLine]
  by_cases hpiece : text.takeWhile (· != '\n') = []
  · rw [hpiece, List.append_nil, dropReturn_of_getLast?_ne hreturn]
    exact (List.append_nil start).symm
  · exact dropReturn_append start hpiece

theorem firstLine_of_append {start rest text : Text} (hfeed : '\n' ∉ start)
    (h : firstLine (start ++ text) = start ++ rest) : firstLine text = rest := by
  rw [firstLine_append_of_not_mem hfeed] at h
  by_cases hpiece : text.takeWhile (· != '\n') = []
  · have hlength := length_dropReturn_le start
    rw [hpiece, List.append_nil] at h
    rw [h, List.length_append] at hlength
    have hrest : rest = [] := by
      apply List.eq_nil_of_length_eq_zero
      omega
    rw [firstLine, hpiece, hrest]
    rfl
  · rw [dropReturn_append start hpiece] at h
    exact List.append_cancel_left h

theorem lines_append_of_ended {ending : Text}
    (h : ending = [] ∨ ending.head? = some '\n') (text : Text) :
    lines (text ++ ending) = lines text ++ (lines ending).tail := by
  cases ending with
  | nil =>
      rw [List.append_nil]
      exact (List.append_nil _).symm
  | cons c rest =>
      have hc : c = '\n' := by
        rcases h with h | h
        · cases h
        · exact Option.some.inj h
      rw [hc, lines_append_newline, lines_newline, List.tail_cons]

theorem dropWhile_ended (text : Text) :
    text.dropWhile (· != '\n') = [] ∨
      (text.dropWhile (· != '\n')).head? = some '\n' := by
  have hhead := List.head?_dropWhile_not (· != '\n') text
  cases hrest : text.dropWhile (· != '\n') with
  | nil =>
      exact Or.inl rfl
  | cons c rest =>
      rw [hrest] at hhead
      have hc : c = '\n' := by
        simpa using hhead
      exact Or.inr (congrArg some hc)

theorem dropLast_lines (text : Text) :
    (lines text).dropLast = (lines (endedLines text)).dropLast := by
  have happend := (wholeLines_endedLines text).lines_append (lastLine text)
  rw [endedLines_append_lastLine, lines_of_not_mem (newline_not_mem_lastLine text)]
    at happend
  rw [happend, List.dropLast_concat]

theorem tail_lines (text : Text) :
    (lines text).tail = (lines (text.dropWhile (· != '\n'))).tail := by
  have happend := lines_append_of_not_mem (not_mem_takeWhile_bne '\n' text)
    (text.dropWhile (· != '\n'))
  rw [List.takeWhile_append_dropWhile] at happend
  rw [happend, List.tail_cons]

/-- The lines of three texts in a row: those that end in the first one, those that
the middle one touches, and those that start in the last one. -/
theorem lines_append_append (before middle after : Text) :
    lines (before ++ middle ++ after) =
      (lines before).dropLast ++
        lines (lastLine before ++ middle ++ after.takeWhile (· != '\n')) ++
          (lines after).tail := by
  have hbefore : before ++ middle ++ after =
      endedLines before ++ (lastLine before ++ middle ++ after) := by
    rw [← List.append_assoc, ← List.append_assoc, endedLines_append_lastLine]
  have hafter : lastLine before ++ middle ++ after =
      lastLine before ++ middle ++ after.takeWhile (· != '\n') ++
        after.dropWhile (· != '\n') := by
    rw [List.append_assoc _ (after.takeWhile _), List.takeWhile_append_dropWhile]
  rw [hbefore, (wholeLines_endedLines before).lines_append, hafter,
    lines_append_of_ended (dropWhile_ended after), dropLast_lines before,
    tail_lines after]
  exact (List.append_assoc _ _ _).symm

/-!
# The text from a line on
-/

theorem WholeLines.cons {c : Char} {text : Text} (h : WholeLines text)
    (hc : c = '\n' ∨ text ≠ []) : WholeLines (c :: text) := by
  right
  cases text with
  | nil =>
      rcases hc with hc | hc
      · rw [hc]
        rfl
      · exact absurd rfl hc
  | cons d rest =>
      rw [List.getLast?_cons_cons]
      exact h.resolve_left (List.cons_ne_nil d rest)

theorem exists_wholeLines {text : Text} {number : Nat}
    (h : number ≤ text.count '\n') :
    ∃ above below, text = above ++ below ∧ WholeLines above ∧
      above.count '\n' = number := by
  induction text generalizing number with
  | nil =>
      exact ⟨[], [], rfl, Or.inl rfl, (Nat.le_zero.mp h).symm⟩
  | cons c rest ih =>
      cases number with
      | zero =>
          exact ⟨[], c :: rest, rfl, Or.inl rfl, rfl⟩
      | succ number =>
          by_cases hc : c = '\n'
          · rw [hc, List.count_cons_self] at h
            rcases ih (Nat.le_of_succ_le_succ h) with ⟨above, below, rfl, hwhole, hcount⟩
            refine ⟨c :: above, below, rfl, hwhole.cons (Or.inl hc), ?_⟩
            rw [hc, List.count_cons_self, hcount]
          · rw [List.count_cons_of_ne hc] at h
            rcases ih h with ⟨above, below, rfl, hwhole, hcount⟩
            have hne : above ≠ [] := by
              intro hnil
              rw [hnil] at hcount
              cases hcount
            refine ⟨c :: above, below, rfl, hwhole.cons (Or.inr hne), ?_⟩
            rw [List.count_cons_of_ne hc, hcount]

theorem exists_text_from_line {text line : Text} {number : Nat}
    (h : (lines text)[number]? = some line) :
    ∃ above below, text = above ++ below ∧ WholeLines above ∧
      above.count '\n' = number ∧ firstLine below = line := by
  have hlength : number < (lines text).length :=
    (List.getElem?_eq_some_iff.mp h).1
  rw [length_lines] at hlength
  rcases exists_wholeLines (Nat.le_of_lt_succ hlength) with
    ⟨above, below, rfl, hwhole, hcount⟩
  refine ⟨above, below, rfl, hwhole, hcount, ?_⟩
  rw [← hcount, hwhole.getElem?_lines] at h
  exact Option.some.inj h

theorem columnIndex_mono (line : Text) {first second : Nat} (h : first ≤ second) :
    columnIndex line first ≤ columnIndex line second := by
  induction line generalizing first second with
  | nil =>
      exact Nat.le_refl 0
  | cons c rest ih =>
      cases first with
      | zero =>
          rw [columnIndex_zero]
          exact Nat.zero_le _
      | succ first =>
          cases second with
          | zero =>
              cases h
          | succ second =>
              rw [columnIndex, columnIndex]
              exact Nat.add_le_add_left (ih (Nat.sub_le_sub_right h _)) 1

end Text

/-!
# The order of positions
-/

instance : LE Position where
  le first second :=
    first.line < second.line ∨
      first.line = second.line ∧ first.character ≤ second.character

instance (first second : Position) : Decidable (first ≤ second) :=
  inferInstanceAs (Decidable (_ ∨ _))

namespace Position

open Text

theorem length_firstLine_le_index (text : Text) (line column : Nat) :
    (firstLine text).length ≤ index text ⟨line + 1, column⟩ := by
  induction text with
  | nil =>
      exact Nat.le_refl 0
  | cons c rest ih =>
      by_cases hc : c = '\n'
      · have hempty : firstLine (c :: rest) = [] := by
          simp [firstLine, dropReturn, hc]
        rw [hempty]
        exact Nat.zero_le _
      · rw [index, if_neg hc]
        have hpiece : (firstLine (c :: rest)).length ≤ 1 + (firstLine rest).length := by
          rw [firstLine, List.takeWhile_cons_of_pos (by simpa using hc), firstLine]
          by_cases hnil : rest.takeWhile (· != '\n') = []
          · rw [hnil]
            exact length_dropReturn_le [c]
          · have happend := dropReturn_append [c] hnil
            rw [List.singleton_append] at happend
            rw [happend, List.singleton_append, List.length_cons, Nat.add_comm]
        exact Nat.le_trans hpiece (Nat.add_le_add_left ih 1)

theorem index_mono (text : Text) {first second : Position} (h : first ≤ second) :
    index text first ≤ index text second := by
  induction text generalizing first second with
  | nil =>
      exact Nat.le_refl 0
  | cons c rest ih =>
      rcases first with ⟨line, column⟩
      rcases second with ⟨line', column'⟩
      cases line with
      | zero =>
          rw [index_line_zero]
          cases line' with
          | zero =>
              rw [index_line_zero]
              rcases h with hlt | ⟨_, hle⟩
              · cases hlt
              · exact columnIndex_mono _ hle
          | succ line' =>
              exact Nat.le_trans (columnIndex_le_length _ _)
                (length_firstLine_le_index (c :: rest) line' column')
      | succ line =>
          cases line' with
          | zero =>
              rcases h with hlt | ⟨heq, _⟩
              · cases hlt
              · cases heq
          | succ line' =>
              rw [index, index]
              apply Nat.add_le_add_left
              apply ih
              by_cases hc : c = '\n'
              · rw [if_pos hc, if_pos hc]
                rcases h with hlt | ⟨heq, hle⟩
                · exact Or.inl (Nat.lt_of_succ_lt_succ hlt)
                · exact Or.inr ⟨Nat.succ.inj heq, hle⟩
              · rw [if_neg hc, if_neg hc]
                exact h

theorem index_on_line {above : Text} (h : WholeLines above) (below : Text)
    (column : Nat) :
    index (above ++ below) ⟨above.count '\n', column⟩ =
      above.length + columnIndex (firstLine below) column := by
  have hbelow := index_wholeLines_append h below 0 column
  rwa [index_line_zero, Nat.add_zero] at hbelow

theorem count_take_index (text : Text) (position : Position) :
    (text.take (index text position)).count '\n' =
      min position.line (text.count '\n') := by
  induction text generalizing position with
  | nil =>
      exact (Nat.min_zero _).symm
  | cons c rest ih =>
      rcases position with ⟨line, column⟩
      cases line with
      | zero =>
          have hbefore : '\n' ∉ (c :: rest).take (index (c :: rest) ⟨0, column⟩) :=
            newline_not_mem_take (columnIndex_le_length _ _)
          rw [List.count_eq_zero.mpr hbefore, Nat.zero_min]
      | succ line =>
          rw [index, Nat.add_comm 1, List.take_succ_cons]
          by_cases hc : c = '\n'
          · rw [if_pos hc, hc, List.count_cons_self, List.count_cons_self, ih,
              Nat.succ_min_succ]
          · rw [if_neg hc, List.count_cons_of_ne hc, List.count_cons_of_ne hc, ih]

end Position

/-!
# Changes of a range
-/

namespace Change

open Text Position

theorem apply_of_le (text : Text) {range : Range} (h : range.start ≤ range.stop)
    (replacement : Text) :
    apply text ⟨some range, replacement⟩ =
      text.take (range.start.index text) ++ replacement ++
        text.drop (range.stop.index text) := by
  have hle := index_mono text h
  simp only [apply, Nat.min_eq_left hle, Nat.max_eq_right hle]

/-- A change replaces the lines of its range and keeps those above and below. -/
theorem lines_apply (text : Text) {range : Range} (h : range.start ≤ range.stop)
    (replacement : Text) :
    ∃ above old new below,
      lines text = above ++ old ++ below ∧
      lines (apply text ⟨some range, replacement⟩) = above ++ new ++ below ∧
      above.length = min range.start.line (text.count '\n') ∧
      above.length + old.length = min range.stop.line (text.count '\n') + 1 ∧
      new.length = replacement.count '\n' + 1 := by
  have hle := index_mono text h
  have hstart := count_take_index text range.start
  have hstop := count_take_index text range.stop
  rw [apply_of_le text h]
  generalize range.start.index text = first at *
  generalize range.stop.index text = last at *
  -- what the range holds stands between the two parts that are kept
  have hrange : text.take last = text.take first ++ (text.take last).drop first := by
    have hsplit := List.take_append_drop first (text.take last)
    rw [List.take_take, Nat.min_eq_left hle] at hsplit
    exact hsplit.symm
  have htext : text = text.take first ++ (text.take last).drop first ++ text.drop last := by
    rw [← hrange, List.take_append_drop]
  refine ⟨(lines (text.take first)).dropLast,
    lines (lastLine (text.take first) ++ (text.take last).drop first ++
      (text.drop last).takeWhile (· != '\n')),
    lines (lastLine (text.take first) ++ replacement ++
      (text.drop last).takeWhile (· != '\n')),
    (lines (text.drop last)).tail, ?_, lines_append_append _ _ _, ?_, ?_, ?_⟩
  · have hlines := lines_append_append (text.take first) ((text.take last).drop first)
      (text.drop last)
    rwa [← htext] at hlines
  · rw [length_dropLast_lines, hstart]
  · have hcount := congrArg (List.count '\n') hrange
    rw [hstop, List.count_append, hstart] at hcount
    rw [length_dropLast_lines, length_lines, List.count_append,
      List.count_append, List.count_eq_zero.mpr (newline_not_mem_lastLine _),
      List.count_eq_zero.mpr (not_mem_takeWhile_bne _ _), hstart, hcount]
    omega
  · rw [length_lines, List.count_append, List.count_append,
      List.count_eq_zero.mpr (newline_not_mem_lastLine _),
      List.count_eq_zero.mpr (not_mem_takeWhile_bne _ _), Nat.zero_add, Nat.add_zero]

theorem apply_on_line {above : Text} (h : WholeLines above) (below : Text)
    {first last : Nat} (hle : first ≤ last) (replacement : Text) :
    apply (above ++ below)
        ⟨some ⟨⟨above.count '\n', first⟩, ⟨above.count '\n', last⟩⟩, replacement⟩ =
      above ++ (below.take (columnIndex (firstLine below) first) ++ replacement ++
        below.drop (columnIndex (firstLine below) last)) := by
  rw [apply_of_le _ (Or.inr ⟨rfl, hle⟩), index_on_line h, index_on_line h,
    List.take_length_add_append, List.drop_length_add_append, List.append_assoc,
    List.append_assoc, List.append_assoc]

end Change
end ScriptAssist
