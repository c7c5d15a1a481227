import ScriptAssist.Catalog.Vocabulary

/-!
# What can be completed

The part of a line before the caret decides what can be completed there: the
first argument of `browser` or `feature`, a command as long as no second word
has been started, or nothing.
-/

namespace ScriptAssist

inductive Context where
  | topLevel
  | argumentOf (command : String)
  | noSuggestion
  deriving DecidableEq, Repr

namespace Context

open Text

def after? : Text → Text → Option Text
  | [], line => some line
  | _ :: _, [] => none
  | c :: word, d :: line => if c = d then after? word line else none

theorem after?_eq_some_iff {word line rest : Text} :
    after? word line = some rest ↔ line = word ++ rest := by
  induction word generalizing line with
  | nil =>
      simp [after?]
  | cons c word ih =>
      cases line with
      | nil =>
          simp [after?]
      | cons d line =>
          by_cases hc : c = d
          · simp [after?, hc, ih]
          · simp [after?, hc, Ne.symm hc]

/-- Whether a line ends in the first argument of a command: after the command and
at least one blank, nothing or the opening quote of an argument. -/
def inArgument (command : String) (line : Text) : Bool :=
  match after? command.toList (trimStart line) with
  | none => false
  | some rest =>
      let argument := trimStart rest
      argument.length < rest.length && (argument.isEmpty || argument.head? = some '"')

def classify (line : Text) : Context :=
  if inArgument Vocabulary.browserCommand line then
    .argumentOf Vocabulary.browserCommand
  else if inArgument Vocabulary.featureCommand line then
    .argumentOf Vocabulary.featureCommand
  else if ' ' ∈ trim line then
    .noSuggestion
  else
    .topLevel

end Context
end ScriptAssist
