import ScriptAssist.Script.Diagnostic
import Mathlib.Data.List.TakeWhile

/-!
# What the scanner reports

The scanner goes down a script with one piece of state, the region that a line
is in.  Here the region is told from all earlier lines at once: a line is in a
passage of JavaScript if an opener stands before it with no closer in between.
The findings are then exactly the lines outside of passages that are led by a
word which is no command.
-/

namespace ScriptAssist

/-!
# Leading tokens
-/

namespace Token

open Text

theorem line_eq_of_leading? {line : Text} {token : Token}
    (h : leading? line = some token) :
    ∃ rest, line = token.indentation ++ token.word ++ rest := by
  simp only [leading?] at h
  split at h
  · cases h
  · cases h
    refine ⟨(trimStart line).dropWhile isWordChar, ?_⟩
    rw [List.append_assoc, List.takeWhile_append_dropWhile,
      indentation_append_trimStart]

theorem isWordChar_of_mem_word {line : Text} {token : Token}
    (h : leading? line = some token) {c : Char} (hc : c ∈ token.word) :
    isWordChar c = true := by
  simp only [leading?] at h
  split at h
  · cases h
  · cases h
    exact List.mem_takeWhile_imp hc

theorem unitsOf_of_isWordChar {c : Char} (h : isWordChar c = true) : unitsOf c = 1 := by
  have hascii : c.toNat < 0x10000 := by
    have hclass : ((c.isUpper ∨ c.isLower) ∨ c.isDigit) ∨ c = '-' := by
      have hcases : (((c.isUpper || c.isLower) || c.isDigit) || decide (c = '-')) = true :=
        h
      simpa only [Bool.or_eq_true, decide_eq_true_eq] using hcases
    rcases hclass with ((hupper | hlower) | hdigit) | rfl
    · exact Nat.lt_of_le_of_lt (of_decide_eq_true hupper).2 (by decide)
    · exact Nat.lt_of_le_of_lt (of_decide_eq_true (Bool.and_eq_true_iff.mp hlower).2)
        (by decide)
    · exact Nat.lt_of_le_of_lt (of_decide_eq_true (Bool.and_eq_true_iff.mp hdigit).2)
        (by decide)
    · decide
  rw [unitsOf, if_pos hascii]

theorem columns_eq_length {word : Text} (h : ∀ c ∈ word, isWordChar c = true) :
    columns word = word.length := by
  induction word with
  | nil =>
      rfl
  | cons c rest ih =>
      have hrest := ih fun d hd => h d (List.mem_cons_of_mem c hd)
      rw [columns_cons, unitsOf_of_isWordChar (h c List.mem_cons_self), hrest,
        List.length_cons, Nat.add_comm]

theorem columns_word {line : Text} {token : Token} (h : leading? line = some token) :
    columns token.word = token.word.length :=
  columns_eq_length fun _ hc => isWordChar_of_mem_word h hc

def leadingKey? (line : Text) : Option String :=
  (leading? line).map key

end Token

namespace Script

open Token

/-!
# Regions
-/

def keyAt? (lines : List Text) (number : Nat) : Option String :=
  lines[number]?.bind leadingKey?

/-- Whether the line with a number is in a passage of JavaScript. -/
def InPassage (lines : List Text) (number : Nat) : Prop :=
  ∃ first, first < number ∧ keyAt? lines first = some Vocabulary.passageOpener ∧
    ∀ between, first < between → between < number →
      keyAt? lines between ≠ some Vocabulary.passageCloser

def regionAt (lines : List Text) (number : Nat) : Region :=
  (lines.take number).foldl Region.after .commands

theorem after_eq_javaScript_iff (region : Region) (line : Text) :
    region.after line = .javaScript ↔
      leadingKey? line = some Vocabulary.passageOpener ∨
        region = .javaScript ∧ leadingKey? line ≠ some Vocabulary.passageCloser := by
  rw [Region.after, leadingKey?]
  cases leading? line with
  | none =>
      simp
  | some token =>
      cases region with
      | commands =>
          by_cases hopener : token.key = Vocabulary.passageOpener <;> simp [hopener]
      | javaScript =>
          by_cases hcloser : token.key = Vocabulary.passageCloser
          · simp [hcloser, Vocabulary.passageCloser, Vocabulary.passageOpener]
          · simp [hcloser]

theorem regionAt_succ_eq_javaScript_iff (lines : List Text) (number : Nat) :
    regionAt lines (number + 1) = .javaScript ↔
      keyAt? lines number = some Vocabulary.passageOpener ∨
        regionAt lines number = .javaScript ∧
          keyAt? lines number ≠ some Vocabulary.passageCloser := by
  rw [regionAt, regionAt, keyAt?, List.take_add_one, List.foldl_append]
  cases lines[number]? with
  | none =>
      simp
  | some line =>
      exact after_eq_javaScript_iff _ line

theorem inPassage_succ_iff (lines : List Text) (number : Nat) :
    InPassage lines (number + 1) ↔
      keyAt? lines number = some Vocabulary.passageOpener ∨
        InPassage lines number ∧
          keyAt? lines number ≠ some Vocabulary.passageCloser := by
  constructor
  · rintro ⟨first, hfirst, hopener, hbetween⟩
    rcases Nat.lt_succ_iff_lt_or_eq.mp hfirst with hlt | heq
    · right
      refine ⟨⟨first, hlt, hopener, ?_⟩, hbetween number hlt (Nat.lt_succ_self number)⟩
      intro between hleft hright
      exact hbetween between hleft (Nat.lt_succ_of_lt hright)
    · left
      rw [← heq]
      exact hopener
  · rintro (hopener | ⟨⟨first, hfirst, hopener, hbetween⟩, hlast⟩)
    · refine ⟨number, Nat.lt_succ_self number, hopener, ?_⟩
      intro between hleft hright
      omega
    · refine ⟨first, Nat.lt_succ_of_lt hfirst, hopener, ?_⟩
      intro between hleft hright
      rcases Nat.lt_succ_iff_lt_or_eq.mp hright with hlt | heq
      · exact hbetween between hleft hlt
      · rw [heq]
        exact hlast

/-- The state of the scanner tells whether a line is in a passage. -/
theorem regionAt_eq_javaScript_iff (lines : List Text) (number : Nat) :
    regionAt lines number = .javaScript ↔ InPassage lines number := by
  induction number with
  | zero =>
      constructor
      · intro h
        cases h
      · rintro ⟨first, hfirst, _⟩
        cases hfirst
  | succ number ih =>
      rw [regionAt_succ_eq_javaScript_iff, inPassage_succ_iff, ih]

/-!
# Findings
-/

def IsKeyword (word : String) : Prop :=
  ∃ command ∈ Vocabulary.commands.entries, command.keyword = word

theorem contains_commands_iff (word : String) :
    Vocabulary.commands.contains word = true ↔ IsKeyword word := by
  rw [Catalog.contains, Catalog.keys, List.contains_iff_mem, List.mem_map]
  rfl

theorem checkLine_eq_some_iff {region : Region} {number : Nat} {line : Text}
    {finding : Diagnostic} :
    checkLine region number line = some finding ↔
      region ≠ .javaScript ∧ ∃ token, leading? line = some token ∧
        ¬ IsKeyword token.key ∧ finding = .unknownCommand number token := by
  unfold checkLine
  cases region with
  | javaScript =>
      simp
  | commands =>
      cases leading? line with
      | none =>
          simp
      | some token =>
          by_cases hkeyword : Vocabulary.commands.contains token.key = true
          · have hknown := (contains_commands_iff token.key).mp hkeyword
            simp [hkeyword, hknown]
          · have hunknown : ¬ IsKeyword token.key := by
              rwa [← contains_commands_iff]
            simp [hkeyword, hunknown, eq_comm]

theorem mem_checkLines_iff {region : Region} {number : Nat} {lines : List Text}
    {finding : Diagnostic} :
    finding ∈ checkLines region number lines ↔
      ∃ index line, lines[index]? = some line ∧
        checkLine ((lines.take index).foldl Region.after region) (number + index) line =
          some finding := by
  induction lines generalizing region number with
  | nil =>
      simp [checkLines]
  | cons first rest ih =>
      rw [checkLines, List.mem_append, Option.mem_toList, ih]
      constructor
      · rintro (hfirst | ⟨index, line, hline, hcheck⟩)
        · exact ⟨0, first, rfl, hfirst⟩
        · refine ⟨index + 1, line, hline, ?_⟩
          rwa [Nat.add_right_comm] at hcheck
      · rintro ⟨index, line, hline, hcheck⟩
        cases index with
        | zero =>
            cases hline
            exact Or.inl hcheck
        | succ index =>
            refine Or.inr ⟨index, line, hline, ?_⟩
            rwa [Nat.add_right_comm]

theorem line_of_checkLine {region : Region} {number : Nat} {line : Text}
    {finding : Diagnostic} (h : checkLine region number line = some finding) :
    finding.range.start.line = number := by
  rcases checkLine_eq_some_iff.mp h with ⟨_, token, _, _, rfl⟩
  rfl

theorem pairwise_checkLines (region : Region) (number : Nat) (lines : List Text) :
    (checkLines region number lines).Pairwise
      fun earlier later => earlier.range.start.line < later.range.start.line := by
  induction lines generalizing region number with
  | nil =>
      exact List.Pairwise.nil
  | cons first rest ih =>
      rw [checkLines, List.pairwise_append]
      refine ⟨?_, ih (region.after first) (number + 1), ?_⟩
      · cases checkLine region number first <;> simp
      · intro earlier hearlier later hlater
        rcases mem_checkLines_iff.mp hlater with ⟨index, line, _, hcheck⟩
        rw [line_of_checkLine (Option.mem_toList.mp hearlier), line_of_checkLine hcheck]
        omega

/-- The findings about a script, in the order of its lines and one for each line, are
those about the lines outside of passages whose leading word is no command. -/
theorem diagnostics_exact (text : Text) :
    ((diagnostics text).Pairwise fun earlier later =>
        earlier.range.start.line < later.range.start.line) ∧
      ∀ finding, finding ∈ diagnostics text ↔
        ∃ number before word after,
          (Text.lines text)[number]? = some (before ++ word ++ after) ∧
          leading? (before ++ word ++ after) = some ⟨before, word⟩ ∧
          ¬ IsKeyword (String.ofList word) ∧
          ¬ InPassage (Text.lines text) number ∧
          finding = {
            range := ⟨⟨number, Text.columns before⟩,
              ⟨number, Text.columns before + word.length⟩⟩
            severity := .error
            source := "bamc-lsp"
            message := "Unknown BAMC command: '" ++ String.ofList word ++ "'" } := by
  refine ⟨pairwise_checkLines .commands 0 (Text.lines text), ?_⟩
  intro finding
  have hmem : finding ∈ diagnostics text ↔ _ := mem_checkLines_iff
  rw [hmem]
  constructor
  · rintro ⟨number, line, hline, hcheck⟩
    rcases checkLine_eq_some_iff.mp hcheck with ⟨hregion, token, htoken, hunknown, rfl⟩
    rcases line_eq_of_leading? htoken with ⟨rest, rfl⟩
    refine ⟨number, token.indentation, token.word, rest, hline, htoken, hunknown, ?_, ?_⟩
    · rwa [← regionAt_eq_javaScript_iff]
    · rw [← columns_word htoken, Nat.zero_add]
      rfl
  · rintro ⟨number, before, word, rest, hline, htoken, hunknown, houtside, rfl⟩
    refine ⟨number, before ++ word ++ rest, hline, checkLine_eq_some_iff.mpr ?_⟩
    refine ⟨?_, ⟨before, word⟩, htoken, hunknown, ?_⟩
    · rwa [← regionAt_eq_javaScript_iff] at houtside
    · rw [← columns_word htoken, Nat.zero_add]
      rfl

-- a closer ends the passage however often it was opened, and is unknown outside of it
example :
    (diagnostics ("end-javascript\nstart-javascript\nstart-javascript\n-- nope\n"
      ++ "nope\nend-javascript\n  nope").toList).map (·.range.start) =
      [⟨0, 0⟩, ⟨6, 2⟩] := by
  decide +kernel

end Script
end ScriptAssist
