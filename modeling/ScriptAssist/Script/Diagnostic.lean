import ScriptAssist.Catalog.Vocabulary
import ScriptAssist.Text.Position

/-!
# Diagnostics

A script is checked line by line for leading tokens that are no commands.
Lines between `start-javascript` and `end-javascript` are JavaScript and are
not checked; a passage that is never closed reaches to the end of the script.
-/

namespace ScriptAssist

/-!
# The leading token of a line

A line is led by the command word: after the indentation, the longest run of
ASCII letters, digits and hyphens.  A comment has no leading token, and neither
has a line whose first visible character belongs to no command word.
-/

/-- The word that leads a line, and the blanks before it. -/
structure Token where
  indentation : Text
  word : Text
  deriving DecidableEq, Repr

namespace Token

open Text

def isWordChar (c : Char) : Bool :=
  c.isAlphanum || c = '-'

def isComment : Text → Bool
  | '/' :: '/' :: _ => true
  | '-' :: '-' :: _ => true
  | _ => false

def leading? (line : Text) : Option Token :=
  let body := trimStart line
  let word := body.takeWhile isWordChar
  if isComment body || word.isEmpty then
    none
  else
    some ⟨Text.indentation line, word⟩

def key (token : Token) : String :=
  String.ofList token.word

def offset (token : Token) : Nat :=
  bytes token.indentation

def startColumn (token : Token) : Nat :=
  columns token.indentation

def stopColumn (token : Token) : Nat :=
  token.startColumn + columns token.word

end Token

/-!
# Findings

What is found about a script is a list in the order of its lines.  The region
tells what the lines at a place are read as.
-/

inductive Severity where
  | error
  | warning
  | information
  | hint
  deriving DecidableEq, Repr

structure Diagnostic where
  range : Range
  severity : Severity
  source : String
  message : String
  deriving DecidableEq, Repr

namespace Diagnostic

def reporter : String := "bamc-lsp"

def unknownCommand (line : Nat) (token : Token) : Diagnostic where
  range := ⟨⟨line, token.startColumn⟩, ⟨line, token.stopColumn⟩⟩
  severity := .error
  source := reporter
  message := "Unknown BAMC command: '" ++ token.key ++ "'"

end Diagnostic

namespace Script

inductive Region where
  | commands
  | javaScript
  deriving DecidableEq, Repr

/-- The region after a line, which only the two passage words change. -/
def Region.after (region : Region) (line : Text) : Region :=
  match Token.leading? line with
  | none => region
  | some token =>
      match region with
      | .commands =>
          if token.key = Vocabulary.passageOpener then .javaScript else .commands
      | .javaScript =>
          if token.key = Vocabulary.passageCloser then .commands else .javaScript

def checkLine (region : Region) (number : Nat) (line : Text) : Option Diagnostic :=
  match region, Token.leading? line with
  | .commands, some token =>
      if Vocabulary.commands.contains token.key then none
      else some (.unknownCommand number token)
  | _, _ => none

def checkLines (region : Region) (number : Nat) : List Text → List Diagnostic
  | [] => []
  | line :: rest =>
      (checkLine region number line).toList
        ++ checkLines (region.after line) (number + 1) rest

/-- The findings about a script, in the order of its lines. -/
def diagnostics (text : Text) : List Diagnostic :=
  checkLines .commands 0 (Text.lines text)

end Script
end ScriptAssist
