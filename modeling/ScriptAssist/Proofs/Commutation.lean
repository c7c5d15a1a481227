import ScriptAssist.Proofs.Slices

/-!
# Changes of different lines

A change within one line moves no other line and adds none.  The lines above it
stay as they are, and so does the text that starts with a line below it; where
a change is made is therefore the same before and after a change of another
line, and two such changes can be made in either order.
-/

namespace ScriptAssist
namespace Text

theorem WholeLines.replace {before rest : Text} (h : WholeLines (before ++ '\n' :: rest))
    (other : Text) : WholeLines (other ++ '\n' :: rest) := by
  right
  rcases h with hnil | hlast
  · exact absurd hnil (List.append_ne_nil_of_right_ne_nil _ (List.cons_ne_nil _ _))
  · rw [List.getLast?_append_of_ne_nil _ (List.cons_ne_nil _ _)] at hlast ⊢
    exact hlast

theorem firstLine_newline {line : Text} (h : '\n' ∉ line) (below : Text) :
    firstLine (line ++ '\n' :: below) = dropReturn line := by
  rw [firstLine_append_of_not_mem h, List.takeWhile_cons_of_neg (by simp), List.append_nil]

end Text

namespace Change

open Text Position

/-!
# Changes within a line
-/

/-- Whether a change replaces a part of one line by a text without a line feed. -/
def OnLine (line : Nat) (change : Change) : Prop :=
  (∃ range ∈ change.range, range.start.line = line ∧ range.stop.line = line) ∧
    '\n' ∉ change.text

instance (line : Nat) (change : Change) : Decidable (change.OnLine line) :=
  inferInstanceAs (Decidable (_ ∧ _))

theorem OnLine.exists_columns {line : Nat} {change : Change} (h : change.OnLine line) :
    ∃ first last replacement, '\n' ∉ replacement ∧
      change = ⟨some ⟨⟨line, first⟩, ⟨line, last⟩⟩, replacement⟩ := by
  rcases change with ⟨_, replacement⟩
  rcases h with ⟨⟨⟨⟨start, first⟩, ⟨stop, last⟩⟩, hrange, hstart, hstop⟩, hreplacement⟩
  cases hrange
  cases hstart
  cases hstop
  exact ⟨first, last, replacement, hreplacement, rfl⟩

theorem apply_between_columns {above : Text} (h : WholeLines above) (below : Text)
    (first last : Nat) (replacement : Text) :
    apply (above ++ below)
        ⟨some ⟨⟨above.count '\n', first⟩, ⟨above.count '\n', last⟩⟩, replacement⟩ =
      above ++ (below.take (columnIndex (firstLine below) (min first last)) ++
        replacement ++ below.drop (columnIndex (firstLine below) (max first last))) := by
  rcases Nat.le_total first last with hle | hle
  · rw [apply_on_line h below hle, Nat.min_eq_left hle, Nat.max_eq_right hle]
  · rw [apply_swap, apply_on_line h below hle, Nat.min_eq_right hle, Nat.max_eq_left hle]

theorem OnLine.apply_below {line : Nat} {change : Change} (h : change.OnLine line)
    (below : Text) :
    ∃ changed, ∀ above, WholeLines above → above.count '\n' = line →
      apply (above ++ below) change = above ++ changed := by
  rcases h.exists_columns with ⟨first, last, replacement, _, rfl⟩
  refine ⟨below.take (columnIndex (firstLine below) (min first last)) ++ replacement ++
    below.drop (columnIndex (firstLine below) (max first last)), ?_⟩
  intro above habove hcount
  cases hcount
  exact apply_between_columns habove below first last replacement

theorem OnLine.apply_ended {above line : Text} {change : Change} (habove : WholeLines above)
    (h : change.OnLine (above.count '\n')) (hline : '\n' ∉ line) :
    ∃ changed, '\n' ∉ changed ∧ ∀ below,
      apply (above ++ (line ++ '\n' :: below)) change =
        above ++ (changed ++ '\n' :: below) := by
  rcases h.exists_columns with ⟨first, last, replacement, hreplacement, rfl⟩
  have hbound : ∀ column, columnIndex (dropReturn line) column ≤ line.length := by
    intro column
    exact Nat.le_trans (columnIndex_le_length _ _) (length_dropReturn_le line)
  refine ⟨line.take (columnIndex (dropReturn line) (min first last)) ++ replacement ++
    line.drop (columnIndex (dropReturn line) (max first last)), ?_, ?_⟩
  · rw [List.mem_append, List.mem_append, not_or, not_or]
    exact ⟨⟨fun hmem => hline (List.mem_of_mem_take hmem), hreplacement⟩,
      fun hmem => hline (List.mem_of_mem_drop hmem)⟩
  · intro below
    rw [apply_between_columns habove, firstLine_newline hline,
      List.take_append_of_le_length (hbound _), List.drop_append_of_le_length (hbound _),
      List.append_assoc (_ ++ replacement)]

theorem OnLine.apply_above {line : Nat} {change : Change} (h : change.OnLine line)
    {upper : Text} (hupper : WholeLines upper) (hline : line < upper.count '\n') :
    ∃ changed, WholeLines changed ∧ changed.count '\n' = upper.count '\n' ∧ ∀ below,
      apply (upper ++ below) change = changed ++ below := by
  rcases exists_wholeLines (Nat.le_of_lt hline) with ⟨above, rest, rfl, habove, rfl⟩
  have hfeed : '\n' ∈ rest := by
    rw [List.count_append] at hline
    exact List.count_pos_iff.mp (by omega)
  rcases List.eq_append_cons_of_mem hfeed with ⟨old, rest, rfl, hold⟩
  rcases h.apply_ended habove hold with ⟨new, hnew, happly⟩
  refine ⟨above ++ (new ++ '\n' :: rest), ?_, ?_, ?_⟩
  · rw [← List.append_assoc] at hupper ⊢
    exact hupper.replace _
  · simp only [List.count_append, List.count_eq_zero.mpr hold, List.count_eq_zero.mpr hnew]
  · intro below
    have hbelow := happly (rest ++ below)
    simpa only [List.append_assoc, List.cons_append] using hbelow

/-!
# Two changes
-/

theorem apply_comm_of_lt {text : Text} {line other : Nat} {change edit : Change}
    (hchange : change.OnLine line) (hedit : edit.OnLine other) (hlt : line < other)
    (hother : other ≤ text.count '\n') :
    apply (apply text change) edit = apply (apply text edit) change := by
  rcases exists_wholeLines hother with ⟨upper, below, rfl, hupper, rfl⟩
  rcases hchange.apply_above hupper hlt with ⟨upper', hupper', hcount, habove⟩
  rcases hedit.apply_below below with ⟨below', hbelow⟩
  rw [habove, hbelow upper' hupper' hcount, hbelow upper hupper rfl, habove]

/-- Two changes within different lines of a text can be made in either order. -/
theorem apply_comm_of_lines {text : Text} {line other : Nat} {change edit : Change}
    (hline : line < (lines text).length) (hother : other < (lines text).length)
    (hne : line ≠ other) (hchange : change.OnLine line) (hedit : edit.OnLine other) :
    apply (apply text change) edit = apply (apply text edit) change := by
  rw [length_lines] at hline hother
  rcases Nat.lt_or_gt_of_ne hne with hlt | hgt
  · exact apply_comm_of_lt hchange hedit hlt (Nat.le_of_lt_succ hother)
  · exact (apply_comm_of_lt hedit hchange hgt (Nat.le_of_lt_succ hline)).symm

def returnLines : Text :=
  "a😀b\r\nxy\r".toList

-- From beyond the first line back into the wide character, with a return of its own.
def returnChange : Change :=
  ⟨some ⟨⟨0, 99⟩, ⟨0, 2⟩⟩, ['\r']⟩

def returnEdit : Change :=
  ⟨some ⟨⟨1, 1⟩, ⟨1, 5⟩⟩, ['é', '\r']⟩

theorem apply_comm_of_lines_returns :
    returnChange.OnLine 0 ∧ returnEdit.OnLine 1 ∧
      apply (apply returnLines returnChange) returnEdit =
        apply (apply returnLines returnEdit) returnChange ∧
      apply (apply returnLines returnEdit) returnChange =
        "a😀\r\r\nxé\r\r".toList := by
  have hchange : returnChange.OnLine 0 := by
    decide
  have hedit : returnEdit.OnLine 1 := by
    decide
  have hcomm : apply (apply returnLines returnChange) returnEdit =
      apply (apply returnLines returnEdit) returnChange :=
    apply_comm_of_lines (by decide) (by decide) (by decide) hchange hedit
  exact ⟨hchange, hedit, hcomm, by decide⟩

end Change
end ScriptAssist
