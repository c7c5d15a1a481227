import ScriptAssist.Completion.Context
import ScriptAssist.Proofs.Catalogs
import Mathlib.Data.List.TakeWhile

/-!
# Contexts told from the shape of a line

The context of a caret is computed by trimming: the line up to the caret loses
its blanks at both ends, and what stands after the first word is compared by
length.  Here each context is told from the parts that a line can be cut into.
From the parts it can be seen how the context changes while a line is typed:
where nothing can be completed, nothing can be completed later on, and a quoted
argument stays the argument of its command.
-/

namespace ScriptAssist

/-!
# Trimming joined texts
-/

namespace Text

theorem trimStart_append_of_blank {blanks rest : Text}
    (hblanks : ∀ c ∈ blanks, isBlank c = true)
    (hrest : ∀ c ∈ rest.head?, isBlank c = false) :
    trimStart (blanks ++ rest) = rest := by
  rw [trimStart, List.dropWhile_append_of_pos hblanks]
  cases rest with
  | nil =>
      rfl
  | cons c rest =>
      simp [hrest c rfl]

theorem trimStart_append_of_visible {left : Text} (h : ∃ c ∈ left, isBlank c = false)
    (right : Text) : trimStart (left ++ right) = trimStart left ++ right := by
  have hne : ¬ (left.dropWhile isBlank).isEmpty = true := by
    rw [List.isEmpty_iff, List.dropWhile_eq_nil_iff]
    intro hblank
    rcases h with ⟨c, hc, hvisible⟩
    rw [hblank c hc] at hvisible
    cases hvisible
  rw [trimStart, List.dropWhile_append, if_neg hne]
  rfl

theorem trimEnd_eq_reverse (text : Text) :
    trimEnd text = (trimStart text.reverse).reverse :=
  rfl

theorem trimEnd_append_of_blank {blanks rest : Text}
    (hblanks : ∀ c ∈ blanks, isBlank c = true)
    (hrest : ∀ c ∈ rest.getLast?, isBlank c = false) :
    trimEnd (rest ++ blanks) = rest := by
  have hreverse : trimStart (blanks.reverse ++ rest.reverse) = rest.reverse := by
    apply trimStart_append_of_blank
    · intro c hc
      exact hblanks c (List.mem_reverse.mp hc)
    · rwa [List.head?_reverse]
  rw [trimEnd_eq_reverse, List.reverse_append, hreverse, List.reverse_reverse]

theorem trimEnd_append_of_visible {right : Text} (h : ∃ c ∈ right, isBlank c = false)
    (left : Text) : trimEnd (left ++ right) = left ++ trimEnd right := by
  have hreverse : ∃ c ∈ right.reverse, isBlank c = false := by
    simpa only [List.mem_reverse] using h
  rw [trimEnd_eq_reverse, List.reverse_append, trimStart_append_of_visible hreverse,
    List.reverse_append, List.reverse_reverse, trimEnd_eq_reverse]

theorem head?_trimStart (text : Text) :
    ∀ c ∈ (trimStart text).head?, isBlank c = false := by
  intro c hc
  have hhead := List.head?_dropWhile_not isBlank text
  rw [← trimStart, Option.mem_def.mp hc] at hhead
  exact hhead

theorem getLast?_trimEnd (text : Text) :
    ∀ c ∈ (trimEnd text).getLast?, isBlank c = false := by
  rw [trimEnd_eq_reverse, List.getLast?_reverse]
  exact head?_trimStart text.reverse

theorem trimEnd_isPrefix (text : Text) : trimEnd text <+: text := by
  have hsuffix : trimStart text.reverse <:+ text.reverse := List.dropWhile_suffix _
  rw [trimEnd_eq_reverse, ← List.reverse_suffix, List.reverse_reverse]
  exact hsuffix

def SpaceBetween (line : Text) : Prop :=
  ∃ before after, line = before ++ ' ' :: after ∧
    (∃ c ∈ before, isBlank c = false) ∧ (∃ c ∈ after, isBlank c = false)

theorem SpaceBetween.append {line : Text} (h : SpaceBetween line) (typed : Text) :
    SpaceBetween (line ++ typed) := by
  rcases h with ⟨before, after, rfl, hbefore, c, hc, hvisible⟩
  refine ⟨before, after ++ typed, ?_, hbefore, c, List.mem_append_left typed hc, hvisible⟩
  rw [List.append_assoc, List.cons_append]

theorem space_mem_trim_iff {line : Text} : ' ' ∈ trim line ↔ SpaceBetween line := by
  constructor
  · intro hspace
    rcases List.append_of_mem hspace with ⟨left, right, hsplit⟩
    rcases trimEnd_isPrefix (trimStart line) with ⟨trailing, htrailing⟩
    rw [← trim, hsplit] at htrailing
    have hline : line = indentation line ++ left ++ ' ' :: (right ++ trailing) := by
      conv_lhs => rw [← indentation_append_trimStart line, ← htrailing]
      simp only [List.append_assoc, List.cons_append]
    refine ⟨indentation line ++ left, right ++ trailing, hline, ?_, ?_⟩
    · -- the space is not the first character that trimming leaves
      have hfirst := head?_trimStart line
      rw [← htrailing] at hfirst
      cases left with
      | nil =>
          have hblank := hfirst ' ' rfl
          cases hblank
      | cons c left =>
          exact ⟨c, List.mem_append_right _ List.mem_cons_self, hfirst c rfl⟩
    · -- and it is not the last one
      have hlast := getLast?_trimEnd (trimStart line)
      rw [← trim, hsplit, List.getLast?_append_of_ne_nil _ (List.cons_ne_nil ' ' right),
        List.getLast?_cons] at hlast
      cases hright : right.getLast? with
      | none =>
          rw [hright] at hlast
          have hblank := hlast ' ' rfl
          cases hblank
      | some c =>
          rw [hright] at hlast
          exact ⟨c, List.mem_append_left _ (List.mem_of_getLast? hright), hlast c rfl⟩
  · rintro ⟨before, after, rfl, hbefore, hafter⟩
    rw [trim, trimStart_append_of_visible hbefore, ← List.singleton_append,
      ← List.append_assoc, trimEnd_append_of_visible hafter]
    simp

end Text

namespace Context

open Text

/-!
# Lines that end in an argument
-/

def argumentCommands : List String :=
  [Vocabulary.browserCommand, Vocabulary.featureCommand]

/-- Whether a line consists of blanks, a command, at least one more blank and nothing
else but what starts with a quote. -/
def IsArgumentLine (command : String) (line : Text) : Prop :=
  ∃ indentation gap argument : Text,
    line = indentation ++ command.toList ++ gap ++ argument ∧
    (∀ c ∈ indentation, isBlank c = true) ∧
    gap ≠ [] ∧ (∀ c ∈ gap, isBlank c = true) ∧
    (argument = [] ∨ argument.head? = some '"')

theorem argumentCommands_chars {command : String} (h : command ∈ argumentCommands) :
    command.toList ≠ [] ∧ ∀ c ∈ command.toList, isBlank c = false ∧ c ≠ '"' := by
  have hall : ∀ command ∈ argumentCommands, command.toList ≠ [] ∧
      command.toList.all (fun c => !isBlank c && c != '"') = true := by
    decide
  rcases hall command h with ⟨hne, hchars⟩
  refine ⟨hne, ?_⟩
  intro c hc
  have hchar := List.all_eq_true.mp hchars c hc
  simpa using hchar

section Command

variable {command : String} (hcommand : command ∈ argumentCommands)

include hcommand

theorem head?_command_append (rest : Text) :
    ∀ c ∈ (command.toList ++ rest).head?, isBlank c = false := by
  rcases argumentCommands_chars hcommand with ⟨hne, hchars⟩
  intro c hc
  rw [List.head?_append_of_ne_nil _ hne] at hc
  exact (hchars c (List.mem_of_head? hc)).1

theorem trimStart_command {indentation : Text}
    (hindentation : ∀ c ∈ indentation, isBlank c = true) (rest : Text) :
    trimStart (indentation ++ (command.toList ++ rest)) = command.toList ++ rest :=
  trimStart_append_of_blank hindentation (head?_command_append hcommand rest)

theorem trim_command {indentation gap : Text}
    (hindentation : ∀ c ∈ indentation, isBlank c = true)
    (hgap : ∀ c ∈ gap, isBlank c = true) :
    trim (indentation ++ command.toList ++ gap) = command.toList := by
  rw [trim, List.append_assoc, trimStart_command hcommand hindentation]
  apply trimEnd_append_of_blank hgap
  intro c hc
  exact ((argumentCommands_chars hcommand).2 c (List.mem_of_getLast? hc)).1

theorem inArgument_eq_true_iff (line : Text) :
    inArgument command line = true ↔ IsArgumentLine command line := by
  constructor
  · intro h
    unfold inArgument at h
    split at h
    · cases h
    · next rest hafter =>
        rw [after?_eq_some_iff] at hafter
        simp only [Bool.and_eq_true, Bool.or_eq_true, decide_eq_true_eq,
          List.isEmpty_iff] at h
        rcases h with ⟨hshorter, hargument⟩
        refine ⟨Text.indentation line, Text.indentation rest, trimStart rest, ?_, ?_, ?_,
          ?_, hargument⟩
        · rw [List.append_assoc, indentation_append_trimStart, List.append_assoc, ← hafter,
            indentation_append_trimStart]
        · intro c hc
          exact List.mem_takeWhile_imp hc
        · intro hgap
          have hrest := indentation_append_trimStart rest
          rw [hgap, List.nil_append] at hrest
          rw [hrest] at hshorter
          exact Nat.lt_irrefl _ hshorter
        · intro c hc
          exact List.mem_takeWhile_imp hc
  · rintro ⟨indentation, gap, argument, rfl, hindentation, hgap, hblank, hargument⟩
    have hvisible : ∀ c ∈ argument.head?, isBlank c = false := by
      intro c hc
      rcases hargument with rfl | hquote
      · cases hc
      · rw [hquote] at hc
        cases hc
        rfl
    have hline : after? command.toList
        (trimStart (indentation ++ command.toList ++ gap ++ argument)) =
          some (gap ++ argument) := by
      rw [after?_eq_some_iff, List.append_assoc, List.append_assoc,
        trimStart_command hcommand hindentation]
    have hlonger : 0 < gap.length := List.length_pos_iff.mpr hgap
    rw [inArgument, hline]
    simp only [trimStart_append_of_blank hblank hvisible, Bool.and_eq_true, Bool.or_eq_true,
      decide_eq_true_eq, List.isEmpty_iff, List.length_append]
    exact ⟨by omega, hargument⟩

end Command

theorem IsArgumentLine.isPrefix {command : String} {line : Text}
    (hcommand : command ∈ argumentCommands) (h : IsArgumentLine command line)
    (typed : Text) : command.toList <+: trimStart (line ++ typed) := by
  rcases h with ⟨indentation, gap, argument, rfl, hindentation, _⟩
  simp only [List.append_assoc]
  rw [trimStart_command hcommand hindentation]
  exact List.prefix_append _ _

theorem command_eq_of_isPrefix {first second : String} {text : Text}
    (hfirst : first ∈ argumentCommands) (hsecond : second ∈ argumentCommands)
    (hfirstText : first.toList <+: text) (hsecondText : second.toList <+: text) :
    first = second := by
  have hdistinct : ∀ first ∈ argumentCommands, ∀ second ∈ argumentCommands,
      first.toList.isPrefixOf second.toList = true → first = second := by
    decide
  simp only [List.isPrefixOf_iff_prefix] at hdistinct
  rcases List.prefix_or_prefix_of_prefix hfirstText hsecondText with hshort | hlong
  · exact hdistinct first hfirst second hsecond hshort
  · exact (hdistinct second hsecond first hfirst hlong).symm

theorem IsArgumentLine.unique {first second : String} {line : Text}
    (hfirst : first ∈ argumentCommands) (hsecond : second ∈ argumentCommands)
    (hfirstLine : IsArgumentLine first line) (hsecondLine : IsArgumentLine second line) :
    first = second :=
  command_eq_of_isPrefix hfirst hsecond (hfirstLine.isPrefix hfirst [])
    (hsecondLine.isPrefix hsecond [])

/-!
# What the contexts stand for
-/

/-- The context of a line, with the argument lines of some commands tried in turn. -/
def classifyBy (commands : List String) (line : Text) : Context :=
  match commands.find? (inArgument · line) with
  | some command => .argumentOf command
  | none => if ' ' ∈ trim line then .noSuggestion else .topLevel

theorem classify_eq_classifyBy (line : Text) :
    classify line = classifyBy argumentCommands line := by
  unfold classify classifyBy argumentCommands
  cases hbrowser : inArgument Vocabulary.browserCommand line with
  | true =>
      simp [hbrowser]
  | false =>
      cases hfeature : inArgument Vocabulary.featureCommand line <;>
        simp [hbrowser, hfeature]

section Order

variable {order : List String}
  (horder : ∀ command, command ∈ order ↔ command ∈ argumentCommands)

include horder

theorem find?_inArgument_eq_some_iff {line : Text} {command : String} :
    order.find? (inArgument · line) = some command ↔
      command ∈ argumentCommands ∧ IsArgumentLine command line := by
  have hunique : ∀ first ∈ order, ∀ second ∈ order,
      inArgument first line = true → inArgument second line = true → first = second := by
    intro first hfirst second hsecond hfirstLine hsecondLine
    rw [horder] at hfirst hsecond
    rw [inArgument_eq_true_iff hfirst] at hfirstLine
    rw [inArgument_eq_true_iff hsecond] at hsecondLine
    exact hfirstLine.unique hfirst hsecond hsecondLine
  rw [find?_eq_some_iff_of_unique hunique, horder, and_congr_right_iff]
  intro hcommand
  exact inArgument_eq_true_iff hcommand line

theorem find?_inArgument_eq_none_iff {line : Text} :
    order.find? (inArgument · line) = none ↔
      ∀ command ∈ argumentCommands, ¬ IsArgumentLine command line := by
  rw [Option.eq_none_iff_forall_ne_some]
  constructor
  · intro hnone command hcommand hline
    exact hnone command ((find?_inArgument_eq_some_iff horder).mpr ⟨hcommand, hline⟩)
  · intro hnone command hfind
    rcases (find?_inArgument_eq_some_iff horder).mp hfind with ⟨hcommand, hline⟩
    exact hnone command hcommand hline

theorem classifyBy_eq_classify (line : Text) : classifyBy order line = classify line := by
  have hfind : order.find? (inArgument · line) =
      argumentCommands.find? (inArgument · line) := by
    apply Option.ext
    intro command
    rw [find?_inArgument_eq_some_iff horder, find?_inArgument_eq_some_iff fun _ => Iff.rfl]
  rw [classify_eq_classifyBy, classifyBy, hfind, classifyBy]

end Order

theorem classify_eq_argumentOf_iff {line : Text} {command : String} :
    classify line = .argumentOf command ↔
      command ∈ argumentCommands ∧ IsArgumentLine command line := by
  rw [classify_eq_classifyBy, classifyBy,
    ← find?_inArgument_eq_some_iff fun _ => Iff.rfl]
  cases argumentCommands.find? (inArgument · line) with
  | none =>
      simp only
      split <;> simp
  | some other =>
      simp

theorem classify_eq_topLevel_iff {line : Text} :
    classify line = .topLevel ↔
      (∀ command ∈ argumentCommands, ¬ IsArgumentLine command line) ∧
        ¬ SpaceBetween line := by
  rw [classify_eq_classifyBy, classifyBy,
    ← find?_inArgument_eq_none_iff fun _ => Iff.rfl, ← space_mem_trim_iff]
  cases argumentCommands.find? (inArgument · line) <;> simp

theorem classify_eq_noSuggestion_iff {line : Text} :
    classify line = .noSuggestion ↔
      (∀ command ∈ argumentCommands, ¬ IsArgumentLine command line) ∧
        SpaceBetween line := by
  rw [classify_eq_classifyBy, classifyBy,
    ← find?_inArgument_eq_none_iff fun _ => Iff.rfl, ← space_mem_trim_iff]
  cases argumentCommands.find? (inArgument · line) <;> simp

/-- The context of a caret told from the parts of the line before it.  A line is the
argument line of one command at most, so that they can be tried in any order. -/
theorem classify_exact (line : Text) :
    (∀ command, classify line = .argumentOf command ↔
      command ∈ argumentCommands ∧ IsArgumentLine command line) ∧
    (classify line = .topLevel ↔
      (∀ command ∈ argumentCommands, ¬ IsArgumentLine command line) ∧
        ¬ SpaceBetween line) ∧
    (classify line = .noSuggestion ↔
      (∀ command ∈ argumentCommands, ¬ IsArgumentLine command line) ∧
        SpaceBetween line) ∧
    ¬ (IsArgumentLine Vocabulary.browserCommand line ∧
        IsArgumentLine Vocabulary.featureCommand line) ∧
    ∀ order : List String, order.Perm argumentCommands →
      classifyBy order line = classify line := by
  refine ⟨fun command => classify_eq_argumentOf_iff, classify_eq_topLevel_iff,
    classify_eq_noSuggestion_iff, ?_, ?_⟩
  · rintro ⟨hbrowser, hfeature⟩
    have heq := hbrowser.unique (by decide) (by decide) hfeature
    exact absurd heq (by decide)
  · intro order hperm
    exact classifyBy_eq_classify (fun command => hperm.mem_iff) line

/-!
# Typing on
-/

theorem IsArgumentLine.append {command : String} {line : Text}
    (hcommand : command ∈ argumentCommands) (h : IsArgumentLine command line)
    (hquote : '"' ∈ line) (typed : Text) : IsArgumentLine command (line ++ typed) := by
  rcases h with ⟨indentation, gap, argument, rfl, hindentation, hgap, hblank, hargument⟩
  have hnotBlank : ∀ blanks : Text, (∀ c ∈ blanks, isBlank c = true) → '"' ∉ blanks := by
    intro blanks hblanks hmem
    have hblank := hblanks '"' hmem
    cases hblank
  have hnotCommand : '"' ∉ command.toList := by
    intro hmem
    exact ((argumentCommands_chars hcommand).2 '"' hmem).2 rfl
  -- the quote is in no other part, so the argument has been started
  have hopened : argument.head? = some '"' := by
    rcases hargument with rfl | hopened
    · simp only [List.append_nil, List.mem_append] at hquote
      rcases hquote with (hmem | hmem) | hmem
      · exact absurd hmem (hnotBlank indentation hindentation)
      · exact absurd hmem hnotCommand
      · exact absurd hmem (hnotBlank gap hblank)
    · exact hopened
  refine ⟨indentation, gap, argument ++ typed, List.append_assoc _ _ _, hindentation, hgap,
    hblank, Or.inr ?_⟩
  rw [List.head?_append, hopened]
  rfl

theorem IsArgumentLine.of_append {command : String} {line typed : Text}
    (hcommand : command ∈ argumentCommands) (h : IsArgumentLine command (line ++ typed))
    (hspace : SpaceBetween line) : IsArgumentLine command line := by
  rcases h with ⟨indentation, gap, argument, hline, hindentation, hgap, hblank, hargument⟩
  rcases List.append_eq_append_iff.mp hline with ⟨missing, hwhole, _⟩ | ⟨start, rfl, hrest⟩
  · -- the line breaks off before the argument, where it has but one word
    have hword := hspace.append missing
    rw [← hwhole, ← space_mem_trim_iff, trim_command hcommand hindentation hblank] at hword
    have hblank := ((argumentCommands_chars hcommand).2 ' ' hword).1
    cases hblank
  · -- the line reaches into the argument, which starts in it or not at all
    refine ⟨indentation, gap, start, rfl, hindentation, hgap, hblank, ?_⟩
    cases start with
    | nil =>
        exact Or.inl rfl
    | cons c start =>
        rw [hrest] at hargument
        exact hargument.imp_left fun hnil => absurd hnil (List.cons_ne_nil _ _)

/-- While a line is typed, a context without suggestions remains, the argument of a
command remains once its quote is there, and no argument becomes that of another
command. -/
theorem classify_append (line typed : Text) :
    (classify line = .noSuggestion → classify (line ++ typed) = .noSuggestion) ∧
    (∀ command, classify line = .argumentOf command → '"' ∈ line →
      classify (line ++ typed) = .argumentOf command) ∧
    ∀ command other, classify line = .argumentOf command →
      classify (line ++ typed) = .argumentOf other → command = other := by
  refine ⟨?_, ?_, ?_⟩
  · intro h
    rcases classify_eq_noSuggestion_iff.mp h with ⟨hnone, hspace⟩
    rw [classify_eq_noSuggestion_iff]
    refine ⟨?_, hspace.append typed⟩
    intro command hcommand hline
    exact hnone command hcommand (hline.of_append hcommand hspace)
  · intro command h hquote
    rcases classify_eq_argumentOf_iff.mp h with ⟨hcommand, hline⟩
    exact classify_eq_argumentOf_iff.mpr ⟨hcommand, hline.append hcommand hquote typed⟩
  · intro command other h hother
    rcases classify_eq_argumentOf_iff.mp h with ⟨hcommand, hline⟩
    rcases classify_eq_argumentOf_iff.mp hother with ⟨hotherCommand, hotherLine⟩
    have hotherStart := hotherLine.isPrefix hotherCommand []
    rw [List.append_nil] at hotherStart
    exact command_eq_of_isPrefix hcommand hotherCommand (hline.isPrefix hcommand typed)
      hotherStart

-- A second word keeps candidates away, also when it is that of a command; behind the
-- quote of an argument the other command is part of the argument.
theorem classify_append_second_word :
    classify "go \u3000x".toList = .noSuggestion ∧
      classify ("go \u3000x".toList ++ " browser ".toList) = .noSuggestion ∧
      classify "\u00a0browser\t\"".toList = .argumentOf Vocabulary.browserCommand ∧
      classify ("\u00a0browser\t\"".toList ++ "feature \" x".toList) =
        .argumentOf Vocabulary.browserCommand ∧
      ∀ other, classify ("browser ".toList ++ "\"".toList) = .argumentOf other →
        Vocabulary.browserCommand = other := by
  have hwords : classify "go \u3000x".toList = .noSuggestion := by
    decide
  have hquoted : classify "\u00a0browser\t\"".toList =
      .argumentOf Vocabulary.browserCommand := by
    decide
  have hopen : classify "browser ".toList = .argumentOf Vocabulary.browserCommand := by
    decide
  rcases classify_append "go \u3000x".toList " browser ".toList with ⟨hnone, _⟩
  rcases classify_append "\u00a0browser\t\"".toList "feature \" x".toList with
    ⟨_, hargument, _⟩
  rcases classify_append "browser ".toList "\"".toList with ⟨_, _, hsame⟩
  exact ⟨hwords, hnone hwords, hquoted, hargument _ hquoted (by decide),
    fun other => hsame _ other hopen⟩

end Context
end ScriptAssist
