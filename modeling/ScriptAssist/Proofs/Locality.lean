import ScriptAssist.Proofs.Scanner
import ScriptAssist.Proofs.Splicing

/-!
# Findings and edits

The findings about a script are put together from the findings about its blocks
of lines; from one block to the next only the region is carried over, and the
numbers of the lines move along.  An edit therefore leaves the findings above
it alone, and those below it as well, up to their numbers, if it ends in the
region in which the replaced lines ended.
-/

namespace ScriptAssist

def Diagnostic.renumber (f : Nat → Nat) (finding : Diagnostic) : Diagnostic :=
  { finding with
    range := ⟨⟨f finding.range.start.line, finding.range.start.character⟩,
      ⟨f finding.range.stop.line, finding.range.stop.character⟩⟩ }

namespace Script

open Text

/-!
# Blocks of lines
-/

theorem checkLines_append (region : Region) (number : Nat) (first second : List Text) :
    checkLines region number (first ++ second) =
      checkLines region number first ++
        checkLines (first.foldl Region.after region) (number + first.length) second := by
  induction first generalizing region number with
  | nil =>
      rfl
  | cons line rest ih =>
      rw [List.cons_append, checkLines, ih, checkLines, List.append_assoc,
        List.foldl_cons, List.length_cons, Nat.add_assoc, Nat.add_comm 1]

theorem checkLine_renumber (region : Region) (f : Nat → Nat) (number : Nat) (line : Text) :
    (checkLine region number line).map (Diagnostic.renumber f) =
      checkLine region (f number) line := by
  unfold checkLine
  cases region with
  | javaScript =>
      rfl
  | commands =>
      cases Token.leading? line with
      | none =>
          rfl
      | some token =>
          simp only
          cases Vocabulary.commands.contains token.key <;> rfl

theorem checkLines_renumber (region : Region) (f : Nat → Nat) {number target : Nat}
    (h : ∀ offset, f (number + offset) = target + offset) (lines : List Text) :
    (checkLines region number lines).map (Diagnostic.renumber f) =
      checkLines region target lines := by
  induction lines generalizing region number target with
  | nil =>
      rfl
  | cons line rest ih =>
      have hline : f number = target := h 0
      have hrest : ∀ offset, f (number + 1 + offset) = target + 1 + offset := by
        intro offset
        rw [Nat.add_right_comm, Nat.add_assoc, h, Nat.add_right_comm, Nat.add_assoc]
      rw [checkLines, List.map_append, ih _ hrest, checkLines, ← hline,
        ← checkLine_renumber]
      cases checkLine region number line <;> rfl

theorem line_of_mem_checkLines {region : Region} {number : Nat} {lines : List Text}
    {finding : Diagnostic} (h : finding ∈ checkLines region number lines) :
    number ≤ finding.range.start.line ∧
      finding.range.start.line < number + lines.length := by
  rcases mem_checkLines_iff.mp h with ⟨index, line, hline, hcheck⟩
  have hindex : index < lines.length := (List.getElem?_eq_some_iff.mp hline).1
  rw [line_of_checkLine hcheck]
  constructor
  · exact Nat.le_add_right number index
  · exact Nat.add_lt_add_left hindex number

/-!
# Findings above and below a line
-/

def findingsAbove (text : Text) (number : Nat) : List Diagnostic :=
  (diagnostics text).filter (·.range.start.line < number)

def findingsBelow (text : Text) (number : Nat) : List Diagnostic :=
  (diagnostics text).filter (number < ·.range.start.line)

theorem diagnostics_eq_append {text : Text} {above below : List Text}
    (h : lines text = above ++ below) :
    diagnostics text = checkLines .commands 0 above ++
      checkLines (above.foldl Region.after .commands) above.length below := by
  rw [diagnostics, h, checkLines_append, Nat.zero_add]

theorem findingsAbove_eq {text : Text} {above below : List Text}
    (h : lines text = above ++ below) :
    findingsAbove text above.length = checkLines .commands 0 above := by
  have habove : (checkLines .commands 0 above).filter
      (·.range.start.line < above.length) = checkLines .commands 0 above := by
    apply List.filter_eq_self.mpr
    intro finding hmem
    have hline := (line_of_mem_checkLines hmem).2
    rw [Nat.zero_add] at hline
    exact decide_eq_true hline
  have hbelow : ∀ region, (checkLines region above.length below).filter
      (·.range.start.line < above.length) = [] := by
    intro region
    apply List.filter_eq_nil_iff.mpr
    intro finding hmem hlt
    exact Nat.not_lt.mpr (line_of_mem_checkLines hmem).1 (of_decide_eq_true hlt)
  rw [findingsAbove, diagnostics_eq_append h, List.filter_append, habove, hbelow,
    List.append_nil]

theorem findingsBelow_eq {text : Text} {above below : List Text} {number : Nat}
    (h : lines text = above ++ below) (hlength : above.length = number + 1) :
    findingsBelow text number =
      checkLines (regionAt (lines text) (number + 1)) (number + 1) below := by
  have habove : (checkLines .commands 0 above).filter
      (number < ·.range.start.line) = [] := by
    apply List.filter_eq_nil_iff.mpr
    intro finding hmem hlt
    have hline := (line_of_mem_checkLines hmem).2
    rw [Nat.zero_add, hlength] at hline
    exact Nat.not_lt.mpr (Nat.le_of_lt_succ hline) (of_decide_eq_true hlt)
  have hbelow : ∀ region, (checkLines region (number + 1) below).filter
      (number < ·.range.start.line) = checkLines region (number + 1) below := by
    intro region
    apply List.filter_eq_self.mpr
    intro finding hmem
    exact decide_eq_true (line_of_mem_checkLines hmem).1
  have hregion : regionAt (lines text) (number + 1) =
      above.foldl Region.after .commands := by
    rw [regionAt, h, ← hlength, List.take_left]
  rw [findingsBelow, diagnostics_eq_append h, List.filter_append, habove, hlength,
    hbelow, hregion, List.nil_append]

/-!
# Edits
-/

instance (lines : List Text) (number : Nat) : Decidable (InPassage lines number) :=
  decidable_of_iff _ (regionAt_eq_javaScript_iff lines number)

theorem regionAt_eq_of_iff {first second : List Text} {number target : Nat}
    (h : InPassage first number ↔ InPassage second target) :
    regionAt first number = regionAt second target := by
  rw [← regionAt_eq_javaScript_iff, ← regionAt_eq_javaScript_iff] at h
  cases hfirst : regionAt first number with
  | javaScript =>
      exact (h.mp hfirst).symm
  | commands =>
      cases hsecond : regionAt second target with
      | javaScript =>
          rw [h.mpr hsecond] at hfirst
          cases hfirst
      | commands =>
          rfl

end Script

def Position.lineIn (text : Text) (position : Position) : Nat :=
  min position.line ((Text.lines text).length - 1)

theorem Position.lineIn_eq (text : Text) (position : Position) :
    position.lineIn text = min position.line (text.count '\n') := by
  rw [lineIn, Text.length_lines, Nat.add_sub_cancel]

theorem Position.lineIn_mono (text : Text) {first second : Position}
    (h : first ≤ second) : first.lineIn text ≤ second.lineIn text := by
  have hlines : first.line ≤ second.line := by
    rcases h with hlt | ⟨heq, _⟩
    · exact Nat.le_of_lt hlt
    · exact Nat.le_of_eq heq
  rw [lineIn, lineIn]
  omega

namespace Script

open Text

/-- A change of a range replaces the lines from that of its start to that of its end
and keeps all others; it keeps the findings above, and those below it, if the
scanner leaves the old and the new lines in the same region. -/
theorem edit_is_local (text : Text) (range : Range) (replacement : Text)
    (horder : range.start ≤ range.stop) :
    let edited := Change.apply text ⟨some range, replacement⟩
    let first := range.start.lineIn text
    let last := range.stop.lineIn text
    let newLast := first + replacement.count '\n'
    (lines edited).length =
        (lines text).length - (last - first) + replacement.count '\n' ∧
      (lines edited).take first = (lines text).take first ∧
      (lines edited).drop (newLast + 1) = (lines text).drop (last + 1) ∧
      findingsAbove edited first = findingsAbove text first ∧
      ((InPassage (lines text) (last + 1) ↔ InPassage (lines edited) (newLast + 1)) →
        findingsBelow edited newLast =
          (findingsBelow text last).map
            (Diagnostic.renumber fun line => line + newLast - last)) := by
  intro edited first last newLast
  rcases Change.lines_apply text horder replacement with
    ⟨above, old, new, below, htext, (hedited : lines edited = _), habove, hold, hnew⟩
  have hfirst : above.length = first :=
    habove.trans (range.start.lineIn_eq text).symm
  have hlast : (above ++ old).length = last + 1 := by
    rw [List.length_append, hold]
    exact congrArg (· + 1) (range.stop.lineIn_eq text).symm
  have hnewLast : (above ++ new).length = newLast + 1 := by
    rw [List.length_append, hnew, hfirst]
    rfl
  have hle : first ≤ last := Position.lineIn_mono text horder
  refine ⟨?_, ?_, ?_, ?_, ?_⟩
  · have holdLines := congrArg List.length htext
    have hnewLines := congrArg List.length hedited
    rw [List.length_append, hlast] at holdLines
    rw [List.length_append, hnewLast] at hnewLines
    simp only [newLast] at hnewLines
    omega
  · rw [hedited, htext, ← hfirst, List.append_assoc, List.take_left, List.append_assoc,
      List.take_left]
  · rw [hedited, htext, ← hlast, ← hnewLast, List.drop_left, List.drop_left]
  · rw [List.append_assoc] at htext hedited
    rw [← hfirst, findingsAbove_eq hedited, findingsAbove_eq htext]
  · intro hregion
    rw [findingsBelow_eq hedited hnewLast, findingsBelow_eq htext hlast,
      regionAt_eq_of_iff hregion]
    symm
    apply checkLines_renumber
    intro offset
    omega

def passageScript : Text :=
  "nope\r\nstart-javascript\nlet x\nend-javascript\r\nlast\n".toList

-- The lines of the passage are replaced by other ones, from beyond the end of the
-- line of its opener up to its closer.
def passageChange : Change :=
  ⟨some ⟨⟨1, 99⟩, ⟨3, 0⟩⟩, "\n\nlast\n".toList⟩

theorem edit_is_local_passage :
    (⟨1, 99⟩ : Position) ≤ ⟨3, 0⟩ ∧
      (InPassage (lines passageScript) 4 ↔
        InPassage (lines (Change.apply passageScript passageChange)) 5) ∧
      findingsAbove (Change.apply passageScript passageChange) 1 =
        [.unknownCommand 0 ⟨[], ['n', 'o', 'p', 'e']⟩] ∧
      findingsBelow (Change.apply passageScript passageChange) 4 =
        [.unknownCommand 5 ⟨[], ['l', 'a', 's', 't']⟩] := by
  have horder : (⟨1, 99⟩ : Position) ≤ ⟨3, 0⟩ := by
    decide
  have hregion : InPassage (lines passageScript) 4 ↔
      InPassage (lines (Change.apply passageScript passageChange)) 5 := by
    decide +kernel
  rcases edit_is_local passageScript ⟨⟨1, 99⟩, ⟨3, 0⟩⟩ passageChange.text horder with
    ⟨_, _, _, habove, hbelow⟩
  exact ⟨horder, hregion, habove.trans (by decide +kernel),
    (hbelow hregion).trans (by decide +kernel)⟩

end Script
end ScriptAssist
