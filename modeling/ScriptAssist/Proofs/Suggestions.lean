import ScriptAssist.Completion.Candidates
import ScriptAssist.Proofs.Locality
import ScriptAssist.Proofs.Tokens

/-!
# Edits that the server suggests

A finding points at the word that it is about, and the candidate for a passage
of JavaScript brings an edit of its own.  This module takes both up: a command
in the place of the word removes the finding and no other one, and the inserted
passage is closed before the text that follows it is read.
-/

namespace ScriptAssist

/-!
# Tokens at the start of a text
-/

namespace Token

open Text

namespace Leads

variable {token : Token} {rest : Text}

theorem newline_not_mem_word (h : token.Leads rest) : '\n' ∉ token.word := by
  intro hmem
  have hword := h.wordChars '\n' hmem
  cases hword

theorem getLast?_ne_return (h : token.Leads rest) :
    (token.indentation ++ token.word).getLast? ≠ some '\r' := by
  rw [List.getLast?_append_of_ne_nil _ h.nonempty]
  intro hlast
  have hword := h.wordChars '\r' (List.mem_of_getLast? hlast)
  cases hword

theorem firstLine_eq (h : token.Leads rest) (hfeed : '\n' ∉ token.indentation)
    (after : Text) :
    firstLine (token.indentation ++ token.word ++ after) =
      token.indentation ++ token.word ++ firstLine after := by
  apply firstLine_append
  · rw [List.mem_append, not_or]
    exact ⟨hfeed, h.newline_not_mem_word⟩
  · exact h.getLast?_ne_return

theorem columnIndex_startColumn (h : token.Leads rest)
    (hfeed : '\n' ∉ token.indentation) (after : Text) :
    columnIndex (firstLine (token.indentation ++ token.word ++ after))
        token.startColumn = token.indentation.length := by
  rw [h.firstLine_eq hfeed, List.append_assoc]
  exact columnIndex_columns _ _

theorem columnIndex_stopColumn (h : token.Leads rest)
    (hfeed : '\n' ∉ token.indentation) (after : Text) :
    columnIndex (firstLine (token.indentation ++ token.word ++ after))
        token.stopColumn = (token.indentation ++ token.word).length := by
  have hcolumns : token.stopColumn = columns (token.indentation ++ token.word) :=
    (columns_append _ _).symm
  rw [h.firstLine_eq hfeed, hcolumns]
  exact columnIndex_columns _ _

theorem lines_eq (h : token.Leads rest) (hfeed : '\n' ∉ token.indentation)
    (after : Text) :
    lines (token.indentation ++ token.word ++ after) =
      (token.indentation ++ token.word ++ firstLine after) :: (lines after).tail := by
  rw [← h.firstLine_eq hfeed]
  apply lines_append_of_not_mem
  rw [List.mem_append, not_or]
  exact ⟨hfeed, h.newline_not_mem_word⟩

end Leads

theorem exists_text_after {text : Text} {token : Token}
    (h : Token.leading? (firstLine text) = some token) :
    ∃ after, text = token.indentation ++ token.word ++ after ∧
      '\n' ∉ token.indentation ∧ token.Leads (firstLine after) := by
  rcases leading?_eq_some_iff.mp h with ⟨rest, hline, hleads⟩
  have hfeed : '\n' ∉ token.indentation := by
    intro hmem
    apply newline_not_mem_firstLine text
    rw [hline, List.append_assoc]
    exact List.mem_append_left _ hmem
  rcases isPrefix_firstLine text with ⟨beyond, htext⟩
  rw [hline, List.append_assoc] at htext
  refine ⟨rest ++ beyond, htext.symm, hfeed, ?_⟩
  rw [← htext, hleads.firstLine_eq hfeed] at hline
  rw [List.append_cancel_left hline]
  exact hleads

end Token

namespace Script

open Text Token

/-!
# Regions around a line
-/

theorem regionAt_eq_commands {lines : List Text} {number : Nat}
    (h : ¬ InPassage lines number) : regionAt lines number = .commands := by
  rw [← regionAt_eq_javaScript_iff] at h
  cases hregion : regionAt lines number with
  | commands =>
      rfl
  | javaScript =>
      exact absurd hregion h

theorem foldl_above_eq_commands {text : Text} {above below : List Text}
    (hlines : lines text = above ++ below) (houtside : ¬ InPassage (lines text) above.length) :
    above.foldl Region.after .commands = .commands := by
  have hregion := regionAt_eq_commands houtside
  rwa [regionAt, hlines, List.take_left] at hregion

theorem after_eq_commands {line : Text}
    (h : leadingKey? line ≠ some Vocabulary.passageOpener) :
    Region.commands.after line = .commands := by
  cases hregion : Region.commands.after line with
  | commands =>
      rfl
  | javaScript =>
      rcases (after_eq_javaScript_iff _ _).mp hregion with hopener | ⟨hregion, _⟩
      · exact absurd hopener h
      · cases hregion

theorem checkLine_javaScript (number : Nat) (line : Text) :
    checkLine .javaScript number line = none := by
  unfold checkLine
  cases Token.leading? line <;> rfl

theorem diagnostics_around {text : Text} {above below : List Text} {line : Text}
    (hlines : lines text = above ++ line :: below)
    (hregion : above.foldl Region.after .commands = .commands)
    (hkey : leadingKey? line ≠ some Vocabulary.passageOpener) :
    diagnostics text = checkLines .commands 0 above ++
      ((checkLine .commands above.length line).toList ++
        checkLines .commands (above.length + 1) below) := by
  rw [diagnostics_eq_append hlines, hregion, checkLines, after_eq_commands hkey]

theorem findingsBelow_around {text : Text} {above below : List Text} {line : Text}
    (hlines : lines text = above ++ line :: below)
    (hregion : above.foldl Region.after .commands = .commands)
    (hkey : leadingKey? line ≠ some Vocabulary.passageOpener) :
    findingsBelow text above.length = checkLines .commands (above.length + 1) below := by
  have hsplit : lines text = above ++ [line] ++ below := by
    rw [hlines, List.append_assoc, List.singleton_append]
  have hlength : (above ++ [line]).length = above.length + 1 := by
    rw [List.length_append, List.length_singleton]
  have hafter : regionAt (lines text) (above.length + 1) = .commands := by
    rw [regionAt, hsplit, ← hlength, List.take_left, List.foldl_append, hregion]
    exact after_eq_commands hkey
  rw [findingsBelow_eq hsplit hlength, hafter]

/-!
# A command in the place of an unknown word
-/

theorem leads_keyword {token : Token} {rest : Text} (h : token.Leads rest)
    {command : Command} (hcommand : command ∈ Vocabulary.commands.entries) :
    Leads ⟨token.indentation, command.keyword.toList⟩ rest := by
  have hkeywords : ∀ command ∈ Vocabulary.commands.entries,
      command.keyword.toList ≠ [] ∧ command.keyword.toList.all isWordChar = true ∧
        ¬ ['-', '-'] <+: command.keyword.toList := by
    decide +kernel
  rcases hkeywords command hcommand with ⟨hnonempty, hword, hdashes⟩
  exact ⟨h.blank, hnonempty, List.all_eq_true.mp hword, hdashes, h.maximal⟩

theorem isKeyword_passageOpener : IsKeyword Vocabulary.passageOpener := by
  rw [← contains_commands_iff]
  rfl

theorem checkLine_of_isKeyword {region : Region} {number : Nat} {line : Text}
    {token : Token} (htoken : leading? line = some token) (hkeyword : IsKeyword token.key) :
    checkLine region number line = none := by
  cases hcheck : checkLine region number line with
  | none =>
      rfl
  | some finding =>
      rcases checkLine_eq_some_iff.mp hcheck with ⟨_, other, hother, hunknown, _⟩
      rw [htoken, Option.some.injEq] at hother
      exact absurd hkeyword (hother ▸ hunknown)

theorem exists_token_of_finding {text : Text} {finding : Diagnostic}
    (h : finding ∈ diagnostics text) :
    ∃ above after token,
      text = above ++ (token.indentation ++ token.word ++ after) ∧
      WholeLines above ∧ '\n' ∉ token.indentation ∧ token.Leads (firstLine after) ∧
      ¬ IsKeyword token.key ∧ ¬ InPassage (lines text) (above.count '\n') ∧
      finding = .unknownCommand (above.count '\n') token := by
  rcases mem_checkLines_iff.mp h with ⟨number, line, hline, hcheck⟩
  rcases checkLine_eq_some_iff.mp hcheck with ⟨hregion, token, htoken, hunknown, rfl⟩
  rcases exists_text_from_line hline with ⟨above, below, rfl, habove, rfl, rfl⟩
  rcases exists_text_after htoken with ⟨after, rfl, hfeed, hleads⟩
  refine ⟨above, after, token, rfl, habove, hfeed, hleads, hunknown, ?_, ?_⟩
  · rw [← regionAt_eq_javaScript_iff]
    exact hregion
  · rw [Nat.zero_add]

theorem diagnostics_led_by {above after : Text} {token : Token}
    (habove : WholeLines above) (hleads : token.Leads (firstLine after))
    (hfeed : '\n' ∉ token.indentation)
    (hregion : (lines above).dropLast.foldl Region.after .commands = .commands)
    (hkey : token.key ≠ Vocabulary.passageOpener) :
    diagnostics (above ++ (token.indentation ++ token.word ++ after)) =
      checkLines .commands 0 (lines above).dropLast ++
        ((checkLine .commands (lines above).dropLast.length
            (token.indentation ++ token.word ++ firstLine after)).toList ++
          checkLines .commands ((lines above).dropLast.length + 1) (lines after).tail) := by
  have hlines := habove.lines_append (token.indentation ++ token.word ++ after)
  rw [hleads.lines_eq hfeed] at hlines
  apply diagnostics_around hlines hregion
  rw [leadingKey?, hleads.leading?, Option.map_some, ne_eq, Option.some.injEq]
  exact hkey

theorem erase_finding {above below : List Text} {finding : Diagnostic}
    (hnumber : finding.range.start.line = above.length) :
    (checkLines .commands 0 above ++
        ((some finding).toList ++ checkLines .commands (above.length + 1) below)).erase
          finding =
      checkLines .commands 0 above ++ checkLines .commands (above.length + 1) below := by
  have hfresh : finding ∉ checkLines .commands 0 above := by
    intro hmem
    have hline := (line_of_mem_checkLines hmem).2
    omega
  rw [List.erase_append_right _ hfresh]
  congr 1
  exact List.erase_cons_head finding _

theorem apply_unknownCommand {above after : Text} {token : Token}
    (habove : WholeLines above) (hleads : token.Leads (firstLine after))
    (hfeed : '\n' ∉ token.indentation) (replacement : Text) :
    Change.apply (above ++ (token.indentation ++ token.word ++ after))
        ⟨some (Diagnostic.unknownCommand (above.count '\n') token).range, replacement⟩ =
      above ++ (token.indentation ++ replacement ++ after) := by
  have hle : token.startColumn ≤ token.stopColumn := Nat.le_add_right _ _
  have happly := Change.apply_on_line habove
    (token.indentation ++ token.word ++ after) hle replacement
  have hbefore : (token.indentation ++ token.word ++ after).take
      token.indentation.length = token.indentation := by
    rw [List.append_assoc, List.take_left]
  rw [hleads.columnIndex_startColumn hfeed, hleads.columnIndex_stopColumn hfeed, hbefore,
    List.drop_left] at happly
  exact happly

/-- A command other than the opener of passages, put in the place that a finding
points at, removes this finding and keeps all others as they are. -/
theorem correction_erases_finding (text : Text) {finding : Diagnostic}
    (hfinding : finding ∈ diagnostics text) {command : Command}
    (hcommand : command ∈ Vocabulary.commands.entries)
    (hopener : command.keyword ≠ Vocabulary.passageOpener) :
    diagnostics (Change.apply text ⟨some finding.range, command.keyword.toList⟩) =
      (diagnostics text).erase finding := by
  rcases exists_token_of_finding hfinding with
    ⟨above, after, token, rfl, habove, hfeed, hleads, hunknown, houtside, rfl⟩
  have hnew : Leads ⟨token.indentation, command.keyword.toList⟩ (firstLine after) :=
    leads_keyword hleads hcommand
  have hregion : (lines above).dropLast.foldl Region.after .commands = .commands := by
    apply foldl_above_eq_commands (habove.lines_append _)
    rwa [length_dropLast_lines]
  have holdKey : token.key ≠ Vocabulary.passageOpener := by
    intro heq
    exact hunknown (heq ▸ isKeyword_passageOpener)
  have hnewKey : Token.key ⟨token.indentation, command.keyword.toList⟩ =
      command.keyword :=
    String.ofList_toList
  have hfound : checkLine .commands (lines above).dropLast.length
      (token.indentation ++ token.word ++ firstLine after) =
        some (.unknownCommand (above.count '\n') token) := by
    rw [length_dropLast_lines, checkLine_eq_some_iff]
    exact ⟨by decide, token, hleads.leading?, hunknown, rfl⟩
  have hsilent : checkLine .commands (lines above).dropLast.length
      (token.indentation ++ command.keyword.toList ++ firstLine after) = none := by
    apply checkLine_of_isKeyword hnew.leading?
    rw [hnewKey]
    exact ⟨command, hcommand, rfl⟩
  rw [apply_unknownCommand habove hleads hfeed,
    diagnostics_led_by habove hleads hfeed hregion holdKey, hfound,
    diagnostics_led_by habove hnew hfeed hregion (by rwa [hnewKey]), hsilent,
    erase_finding (length_dropLast_lines above).symm]
  rfl

-- The finding is about a closer without an opener, between blanks that are not ASCII
-- and a line ending of two characters.
theorem correction_erases_stray_closer :
    .unknownCommand 1 ⟨['\u3000'], "end-javascript".toList⟩ ∈
        diagnostics "visit\r\n\u3000end-javascript\r\nnope".toList ∧
      diagnostics (Change.apply "visit\r\n\u3000end-javascript\r\nnope".toList
          ⟨some (Diagnostic.unknownCommand 1
            ⟨['\u3000'], "end-javascript".toList⟩).range, "click".toList⟩) =
        [.unknownCommand 2 ⟨[], ['n', 'o', 'p', 'e']⟩] := by
  have hfinding : .unknownCommand 1 ⟨['\u3000'], "end-javascript".toList⟩ ∈
      diagnostics "visit\r\n\u3000end-javascript\r\nnope".toList := by
    decide +kernel
  have hclick : ∃ command ∈ Vocabulary.commands.entries, command.keyword = "click" := by
    decide +kernel
  rcases hclick with ⟨command, hcommand, hkeyword⟩
  have hopener : command.keyword ≠ Vocabulary.passageOpener := by
    rw [hkeyword]
    decide
  have herase := correction_erases_finding _ hfinding hcommand hopener
  rw [hkeyword] at herase
  exact ⟨hfinding, herase.trans (by decide +kernel)⟩

/-!
# The candidate for a passage
-/

theorem label_ofCommandAt (caret : Position) (command : Command) :
    (Item.ofCommandAt caret command).label = command.keyword := by
  rw [Item.ofCommandAt]
  split <;> rfl

theorem textEdit_ofCommandAt (caret : Position) {command : Command}
    (h : command.keyword = Vocabulary.passageOpener) :
    (Item.ofCommandAt caret command).textEdit =
      some (.fixed (Item.replaceUpTo caret command.template)) := by
  rw [Item.ofCommandAt, if_pos h]

def passageOpening : Text :=
  "start-javascript\n\n// Insert your js code here\n\n".toList

theorem exists_passageCommand :
    ∃ command, Vocabulary.commands.entries.filter
        (·.keyword == Vocabulary.passageOpener) = [command] ∧
      command.template.toList = passageOpening ++ Vocabulary.passageCloser.toList := by
  refine ⟨_, rfl, ?_⟩
  rfl

theorem exists_passageCandidate {text : Text} {caret : Position} {typed : Text}
    (htyped : caret.textBefore? text = some typed)
    (htop : Context.classify typed = .topLevel) :
    ∃ command item,
      Vocabulary.commands.find? Vocabulary.passageOpener = some command ∧
      (completions text caret).filter (·.label == Vocabulary.passageOpener) = [item] ∧
      item.textEdit = some (.fixed (Item.replaceUpTo caret command.template)) ∧
      command.template.toList = passageOpening ++ Vocabulary.passageCloser.toList := by
  rcases exists_passageCommand with ⟨command, hfilter, htemplate⟩
  have hmem : command ∈ Vocabulary.commands.entries.filter
      (·.keyword == Vocabulary.passageOpener) := by
    rw [hfilter]
    exact List.mem_singleton_self command
  have hkeyword : command.keyword = Vocabulary.passageOpener := by
    simpa using (List.mem_filter.mp hmem).2
  refine ⟨command, Item.ofCommandAt caret command, ?_, ?_,
    textEdit_ofCommandAt caret hkeyword, htemplate⟩
  · have hhead := congrArg List.head? hfilter
    rw [List.head?_filter] at hhead
    exact hhead
  · simp only [completions, htyped, htop, Context.candidates, List.filter_map,
      Function.comp_def, label_ofCommandAt, hfilter, List.map_cons, List.map_nil]

theorem columnIndex_of_textBefore? {text : Text} {caret : Position} {typed rest : Text}
    (hline : (lines text)[caret.line]? = some (typed ++ rest))
    (htyped : caret.textBefore? text = some typed) :
    columnIndex (typed ++ rest) caret.character = typed.length := by
  rw [Position.textBefore?, hline, Option.map_some, Option.some.injEq, beforeColumn]
    at htyped
  have hlength := congrArg List.length htyped
  rwa [List.length_take, Nat.min_eq_left (columnIndex_le_length _ _)] at hlength

theorem exists_text_around_caret {text : Text} {caret : Position} {typed rest : Text}
    (hline : (lines text)[caret.line]? = some (typed ++ rest)) :
    ∃ above after, text = above ++ (typed ++ after) ∧ WholeLines above ∧
      above.count '\n' = caret.line ∧ firstLine (typed ++ after) = typed ++ rest ∧
      firstLine after = rest ∧
      lines text = (lines above).dropLast ++ (typed ++ rest) :: (lines after).tail := by
  rcases exists_text_from_line hline with ⟨above, below, rfl, habove, hcount, hfirst⟩
  rcases isPrefix_firstLine below with ⟨beyond, hbelow⟩
  rw [hfirst, List.append_assoc] at hbelow
  have hfeed : '\n' ∉ typed := by
    intro hmem
    apply newline_not_mem_firstLine below
    rw [hfirst]
    exact List.mem_append_left rest hmem
  rw [← hbelow] at hfirst
  refine ⟨above, rest ++ beyond, ?_, habove, hcount, hfirst,
    firstLine_of_append hfeed hfirst, ?_⟩
  · rw [hbelow]
  · rw [← hbelow, habove.lines_append, lines_append_of_not_mem hfeed, hfirst]

theorem apply_replaceUpTo {above typed after : Text} {caret : Position}
    (habove : WholeLines above) (hcount : above.count '\n' = caret.line)
    (hcolumn : columnIndex (firstLine (typed ++ after)) caret.character = typed.length)
    (template : String) :
    Change.apply (above ++ (typed ++ after)) (Item.replaceUpTo caret template).toChange =
      above ++ (template.toList ++ after) := by
  have happly := Change.apply_on_line habove (typed ++ after)
    (Nat.zero_le caret.character) template.toList
  rw [hcolumn, columnIndex_zero, List.take_zero, List.drop_left, hcount,
    List.nil_append] at happly
  exact happly

theorem checkLines_passageOpening (number : Nat) :
    checkLines .commands number (lines passageOpening).dropLast = [] := by
  have hfirst : checkLines .commands 0 (lines passageOpening).dropLast = [] := rfl
  have hoffset : ∀ offset, 0 + offset + number = number + offset := by
    intro offset
    rw [Nat.zero_add, Nat.add_comm]
  rw [← checkLines_renumber .commands (· + number) hoffset, hfirst]
  rfl

theorem foldl_passageOpening :
    (lines passageOpening).dropLast.foldl Region.after .commands = .javaScript :=
  rfl

theorem leads_passageCloser {rest : Text} (h : ∀ c ∈ rest.head?, isWordChar c = false) :
    Leads ⟨[], Vocabulary.passageCloser.toList⟩ rest where
  blank := by
    intro c hc
    cases hc
  nonempty := List.cons_ne_nil _ _
  wordChars := by
    rw [← List.all_eq_true]
    rfl
  noComment := by
    decide
  maximal := h

theorem after_passageCloser {rest : Text} (h : ∀ c ∈ rest.head?, isWordChar c = false) :
    Region.javaScript.after (Vocabulary.passageCloser.toList ++ rest) = .commands := by
  have hleading := (leads_passageCloser h).leading?
  rw [List.nil_append] at hleading
  rw [Region.after, hleading]
  simp only [key, String.ofList_toList, if_true]

theorem checkLines_passage (number : Nat) {rest : Text}
    (h : ∀ c ∈ rest.head?, isWordChar c = false) (below : List Text) :
    checkLines .commands number ((lines passageOpening).dropLast ++
        (Vocabulary.passageCloser.toList ++ rest) :: below) =
      checkLines .commands (number + 5) below := by
  have hlength : (lines passageOpening).dropLast.length = 4 := rfl
  rw [checkLines_append, checkLines_passageOpening, foldl_passageOpening, hlength,
    checkLines, checkLine_javaScript, after_passageCloser h]
  rfl

theorem lines_passage {rest : Text} (h : ∀ c ∈ rest.head?, isWordChar c = false)
    {after : Text} (hafter : firstLine after = rest) :
    lines (passageOpening ++ Vocabulary.passageCloser.toList ++ after) =
      (lines passageOpening).dropLast ++
        (Vocabulary.passageCloser.toList ++ rest) :: (lines after).tail := by
  have hwhole : WholeLines passageOpening := Or.inr rfl
  have hcloser := (leads_passageCloser h).lines_eq List.not_mem_nil after
  rw [List.nil_append, hafter] at hcloser
  rw [List.append_assoc, hwhole.lines_append, hcloser]

/-- Taking the candidate for a passage over, where no passage is open, replaces what
has been typed on the line by the template.  The line loses its finding, the lines
above keep theirs, and those below keep theirs four lines further down. -/
theorem passage_candidate_neutral (text : Text) (caret : Position) {typed rest : Text}
    (hline : (lines text)[caret.line]? = some (typed ++ rest))
    (htyped : caret.textBefore? text = some typed)
    (htop : Context.classify typed = .topLevel)
    (houtside : ¬ InPassage (lines text) caret.line)
    (hkey : leadingKey? (typed ++ rest) ≠ some Vocabulary.passageOpener)
    (hrest : ∀ c ∈ rest.head?, isWordChar c = false) :
    ∃ command item edit above after,
      Vocabulary.commands.find? Vocabulary.passageOpener = some command ∧
      (completions text caret).filter (·.label == Vocabulary.passageOpener) = [item] ∧
      item.textEdit = some (.fixed edit) ∧
      WholeLines above ∧ above.count '\n' = caret.line ∧
      text = above ++ typed ++ after ∧
      Change.apply text edit.toChange = above ++ command.template.toList ++ after ∧
      diagnostics (Change.apply text edit.toChange) =
        findingsAbove text caret.line ++
          (findingsBelow text caret.line).map (Diagnostic.renumber (· + 4)) := by
  rcases exists_passageCandidate htyped htop with
    ⟨command, item, hcommand, hitem, hedit, htemplate⟩
  rcases exists_text_around_caret hline with
    ⟨above, after, rfl, habove, hcount, hfirst, hafter, hlines⟩
  have hcolumn : columnIndex (firstLine (typed ++ after)) caret.character =
      typed.length := by
    rw [hfirst]
    exact columnIndex_of_textBefore? hline htyped
  have happly := apply_replaceUpTo habove hcount hcolumn command.template
  have hlength : (lines above).dropLast.length = caret.line := by
    rw [length_dropLast_lines, hcount]
  have hregion : (lines above).dropLast.foldl Region.after .commands = .commands := by
    apply foldl_above_eq_commands hlines
    rwa [hlength]
  have hnewLines := habove.lines_append
    (passageOpening ++ Vocabulary.passageCloser.toList ++ after)
  rw [lines_passage hrest hafter] at hnewLines
  refine ⟨command, item, _, above, after, hcommand, hitem, hedit, habove, hcount,
    (List.append_assoc _ _ _).symm, ?_, ?_⟩
  · rw [happly, List.append_assoc]
  · have hoffset : ∀ offset, caret.line + 1 + offset + 4 = caret.line + 5 + offset := by
      intro offset
      omega
    rw [happly, htemplate, diagnostics_eq_append hnewLines, hregion,
      checkLines_passage _ hrest, ← findingsAbove_eq hlines]
    rw [hlength, ← checkLines_renumber .commands (· + 4) hoffset]
    rw [← hlength, findingsBelow_around hlines hregion hkey]

-- The caret is between the two halves of a character.
theorem passage_candidate_neutral_inside_character :
    Context.classify ['é', '😀'] = .topLevel ∧
      ¬ InPassage (lines "nope\r\né😀.x\r\nbogus".toList) 1 ∧
      ∃ item edit,
        (completions "nope\r\né😀.x\r\nbogus".toList ⟨1, 2⟩).filter
          (·.label == Vocabulary.passageOpener) = [item] ∧
        item.textEdit = some (.fixed edit) ∧
        diagnostics (Change.apply "nope\r\né😀.x\r\nbogus".toList edit.toChange) =
          [.unknownCommand 0 ⟨[], ['n', 'o', 'p', 'e']⟩,
            .unknownCommand 6 ⟨[], ['b', 'o', 'g', 'u', 's']⟩] := by
  have htop : Context.classify ['é', '😀'] = .topLevel := by
    decide +kernel
  have houtside : ¬ InPassage (lines "nope\r\né😀.x\r\nbogus".toList) 1 := by
    decide +kernel
  have hrest : ∀ c ∈ (['.', 'x'] : Text).head?, isWordChar c = false := by
    intro c hc
    cases hc
    rfl
  rcases passage_candidate_neutral "nope\r\né😀.x\r\nbogus".toList ⟨1, 2⟩
      (show _ = some (['é', '😀'] ++ ['.', 'x']) by decide +kernel) (by decide +kernel)
      htop houtside (by decide +kernel) hrest with
    ⟨_, item, edit, _, _, _, hitem, hedit, _, _, _, _, hfindings⟩
  exact ⟨htop, houtside, item, edit, hitem, hedit, hfindings.trans (by decide +kernel)⟩

end Script
end ScriptAssist
