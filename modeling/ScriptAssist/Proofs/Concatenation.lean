import ScriptAssist.Proofs.Locality
import Mathlib.Data.List.Induction

/-!
# Findings about joined scripts

A script that is continued on a new line keeps its findings, and what is found
in the continuation depends on the part before it by one word only: the last
one there that opens or closes a passage of JavaScript.  An open passage goes
on as if the continuation stood right below a line with the opener.
-/

namespace ScriptAssist
namespace Script

open Text Token

/-!
# The last word about passages
-/

def isPassageWord (word : String) : Bool :=
  word = Vocabulary.passageOpener || word = Vocabulary.passageCloser

/-- The leading word of the last line that is led by the opener or by the closer of
passages. -/
def lastPassageWord? (lines : List Text) : Option String :=
  ((lines.filterMap leadingKey?).filter isPassageWord).getLast?

theorem lastPassageWord?_concat (lines : List Text) (line : Text) :
    lastPassageWord? (lines ++ [line]) =
      ((leadingKey? line).filter isPassageWord).or (lastPassageWord? lines) := by
  rw [lastPassageWord?, List.filterMap_append, List.filter_append, List.getLast?_append]
  cases hkey : leadingKey? line with
  | none =>
      simp [hkey, lastPassageWord?]
  | some word =>
      cases hword : isPassageWord word <;>
        simp [hkey, hword, lastPassageWord?, Option.filter]

theorem isPassageWord_of_mem {lines : List Text} {word : String}
    (h : word ∈ lastPassageWord? lines) : isPassageWord word = true :=
  (List.mem_filter.mp (List.mem_of_getLast? h)).2

theorem foldl_after_eq_javaScript_iff (lines : List Text) :
    lines.foldl Region.after .commands = .javaScript ↔
      lastPassageWord? lines = some Vocabulary.passageOpener := by
  -- from the right end: the last line decides, unless it is about no passage
  induction lines using List.reverseRecOn with
  | nil =>
      constructor <;> intro h <;> cases h
  | append_singleton lines line ih =>
      rw [List.foldl_append, List.foldl_cons, List.foldl_nil, after_eq_javaScript_iff, ih,
        lastPassageWord?_concat]
      cases leadingKey? line with
      | none =>
          simp
      | some word =>
          by_cases hopener : word = Vocabulary.passageOpener
          · simp [hopener, isPassageWord]
          · by_cases hcloser : word = Vocabulary.passageCloser
            · simp [hcloser, isPassageWord, Vocabulary.passageCloser,
                Vocabulary.passageOpener]
            · simp [hopener, hcloser, isPassageWord]

theorem foldl_after_eq_ite (lines : List Text) :
    lines.foldl Region.after .commands =
      if ∀ word ∈ lastPassageWord? lines, word = Vocabulary.passageCloser then .commands
      else .javaScript := by
  have hopen := foldl_after_eq_javaScript_iff lines
  split
  · next hclosed =>
      cases hregion : lines.foldl Region.after .commands with
      | commands =>
          rfl
      | javaScript =>
          have heq := hclosed _ (hopen.mp hregion)
          exact absurd heq (by decide)
  · next hnotClosed =>
      simp only [not_forall] at hnotClosed
      rcases hnotClosed with ⟨word, hword, hcloser⟩
      have hopener : word = Vocabulary.passageOpener := by
        simpa [isPassageWord, hcloser] using isPassageWord_of_mem hword
      exact hopen.mpr (hopener ▸ hword)

/-!
# Continuations
-/

theorem checkLines_eq_renumber_diagnostics (number : Nat) (text : Text) :
    checkLines .commands number (lines text) =
      (diagnostics text).map (Diagnostic.renumber (· + number)) := by
  symm
  apply checkLines_renumber
  intro offset
  rw [Nat.zero_add, Nat.add_comm]

theorem diagnostics_below_opener (text : Text) :
    diagnostics (Vocabulary.passageOpener.toList ++ '\n' :: text) =
      checkLines .javaScript 1 (lines text) := by
  rw [diagnostics_eq_append (lines_append_newline _ text)]
  rfl

/-- The findings about a script that is continued on a new line are its own findings
and those about the continuation, numbered on from its last line.  If the script
ends within a passage, the continuation is read as from below an opener. -/
theorem diagnostics_append_newline (above below : Text) :
    diagnostics (above ++ '\n' :: below) =
        diagnostics above ++
          (if ∀ word ∈ lastPassageWord? (lines above), word = Vocabulary.passageCloser then
            (diagnostics below).map (Diagnostic.renumber (· + (lines above).length))
          else
            (diagnostics (Vocabulary.passageOpener.toList ++ '\n' :: below)).map
              (Diagnostic.renumber (· + ((lines above).length - 1)))) ∧
      diagnostics above <+: diagnostics (above ++ '\n' :: below) := by
  have hsplit := diagnostics_eq_append (lines_append_newline above below)
  refine ⟨?_, ⟨_, hsplit.symm⟩⟩
  rw [hsplit, foldl_after_eq_ite]
  congr 1
  split
  · exact checkLines_eq_renumber_diagnostics _ below
  · -- the line of the opener counts, so that there is one line less to add
    rw [diagnostics_below_opener]
    symm
    apply checkLines_renumber
    intro offset
    rw [length_lines]
    omega

end Script
end ScriptAssist
